import EasyModelGate.Core.Auth
import EasyModelGate.Verify.Database

/-! # The stages of `require_auth`

It looks up the row of the key, then the row of its owner, and only queries. -/

namespace EasyModelGate

open Auth

theorem checkRow_cases (row : Row ApiKey) (nowMs : Int) :
    (∃ e, checkRow row nowMs = .raise e) ∨
      ∃ k, checkRow row nowMs = .await (.query (.userById row.val.userId)) k ∧
        ∀ r, (∃ e, k r = .raise e) ∨ ∃ user, k r = .ret (context row user) := by
  unfold checkRow
  split
  · exact .inl ⟨_, rfl⟩
  split
  · exact .inl ⟨_, rfl⟩
  refine .inr ⟨_, rfl, fun r => ?_⟩
  rcases r with e | _ | user
  · exact .inl ⟨_, rfl⟩
  · exact .inl ⟨_, rfl⟩
  · cases he : user.val.enabled
    · exact .inl ⟨userDisabled, by simp [Coro.bind, he]⟩
    · exact .inr ⟨user, by simp [Coro.bind, he]⟩

section
variable (hashKey : Str → Str) (keyPrefix header : Str) (nowMs : Int)

theorem requireAuth_cases :
    (∃ e, requireAuth hashKey keyPrefix header nowMs = .raise e) ∨
      ∃ k, requireAuth hashKey keyPrefix header nowMs =
          .await (.query (.keyByHash (hashKey (token header)))) k ∧
        ∀ r, (∃ e, k r = .raise e) ∨ ∃ row, r = .ok (some row) ∧ k r = checkRow row nowMs := by
  unfold requireAuth
  split
  · exact .inl ⟨_, rfl⟩
  split
  · exact .inl ⟨_, rfl⟩
  refine .inr ⟨_, rfl, fun r => ?_⟩
  rcases r with e | _ | row
  · exact .inl ⟨_, rfl⟩
  · exact .inl ⟨_, rfl⟩
  · exact .inr ⟨row, rfl, rfl⟩

/-- Where `require_auth` is suspended: at its start, or with the row of the key, which is such that
`P` holds of it. -/
inductive AuthAt (P : Row ApiKey → Prop) : Db AuthContext → Prop
  | start : AuthAt P (requireAuth hashKey keyPrefix header nowMs)
  | found {row} (hrow : P row) : AuthAt P (checkRow row nowMs)

/-- What one statement of `require_auth` leads to. -/
inductive AuthStep (P : Row ApiKey → Prop) : Db AuthContext → Prop
  | raised {e} : AuthStep P (.raise e)
  | found {row} (hrow : P row) : AuthStep P (checkRow row nowMs)
  | granted {row user} (hrow : P row) : AuthStep P (.ret (context row user))

variable {hashKey keyPrefix header nowMs}

theorem AuthAt.mono {P Q : Row ApiKey → Prop} (hPQ : ∀ row, P row → Q row)
    (h : AuthAt hashKey keyPrefix header nowMs P c) :
    AuthAt hashKey keyPrefix header nowMs Q c := by
  cases h with
  | start => exact .start
  | found hrow => exact .found (hPQ _ hrow)

theorem checkRow_advance {P : Row ApiKey → Prop} {conn conn' : Conn} (hrow : P row)
    (hadv : (checkRow row nowMs).advance Conn.handler conn = some (c, conn')) :
    (∃ q, conn' = (conn.step none (.query q)).2) ∧ AuthStep nowMs P c := by
  rcases checkRow_cases row nowMs with ⟨e, hc⟩ | ⟨k, hc, hk⟩
  · rw [hc] at hadv
    cases hadv
  · rw [hc] at hadv
    cases hadv
    refine ⟨⟨_, rfl⟩, ?_⟩
    rcases hk (Conn.handler _ conn).1 with ⟨e, hr⟩ | ⟨user, hr⟩ <;> rw [hr]
    · exact .raised
    · exact .granted hrow

theorem AuthAt.advance {P : Row ApiKey → Prop} {conn conn' : Conn}
    (h : AuthAt hashKey keyPrefix header nowMs P c) (ha : conn.Alone)
    (hP : ∀ row, conn.view.keyByHash (hashKey (token header)) = some row → P row)
    (hadv : c.advance Conn.handler conn = some (c', conn')) :
    (∃ q, conn' = (conn.step none (.query q)).2) ∧ AuthStep nowMs P c' := by
  cases h with
  | start =>
    rcases requireAuth_cases hashKey keyPrefix header nowMs with ⟨e, hc⟩ | ⟨k, hc, hk⟩
    · rw [hc] at hadv
      cases hadv
    · rw [hc] at hadv
      cases hadv
      refine ⟨⟨_, rfl⟩, ?_⟩
      rcases hk (Conn.handler _ conn).1 with ⟨e, hr⟩ | ⟨row, hrow, hr⟩ <;> rw [hr]
      · exact .raised
      · refine .found (hP row ?_)
        have hstep := (ha.step (.query (.keyByHash (hashKey (token header))))).1
        simp only [Conn.handler, hstep, Stmt.effect, Query.exec, Except.mapError] at hrow
        exact Except.ok.inj hrow
  | found hrow => exact checkRow_advance hrow hadv

end
end EasyModelGate
