import EasyModelGate.Verify.Confinement

/-! # What a step of the whole gateway does

The inversion of `System.step`. -/

namespace EasyModelGate.System

variable {cfg : SystemConfig} {s s' : System}

/-- The server of the requests under `/admin` after one of its steps, back in the gateway. -/
def withAdmin (s : System) (admin : AdminServer) : System :=
  { s with gateway := { s.gateway with conn := admin.state.conn }, admin }

inductive Stepped (cfg : SystemConfig) (s : System) : Label → System → Prop
  | chat {l gateway} (h : Gateway.step cfg.gateway s.gateway l = some gateway) :
    Stepped cfg s (.chat l) { s with gateway }
  | modelsArrive {headers nowMs c}
    (hc : c = requireAuth cfg.admin.hashKey cfg.admin.keyPrefix
      ((headers.get (str "authorization")).getD []) nowMs) :
    Stepped cfg s (.models (.arrive headers nowMs)) { s with
      gateway := { s.gateway with tasks := s.gateway.tasks ++ authSpawned nowMs c }
      models := s.models ++ [⟨headers, Public.settleModels cfg.relay headers nowMs c⟩] }
  | modelsAuth {i call c nowMs c' conn} (hm : s.models[i]? = some call)
    (hp : call.phase = .authenticating c nowMs)
    (hc : c.advance Conn.handler s.gateway.conn = some (c', conn)) :
    Stepped cfg s (.models (.auth i)) (s.settleModelsCall cfg i call nowMs c' conn)
  | modelsCancelled {i call c nowMs} (hm : s.models[i]? = some call)
    (hp : call.phase = .authenticating c nowMs) :
    Stepped cfg s (.models (.cancelAuth i))
      (s.setModels i call (.done (.error (.py .cancelledError))))
  | modelsAnswered {i call headers ev} (hm : s.models[i]? = some call)
    (hp : call.phase = .asking headers) :
    Stepped cfg s (.models (.event i ev)) (s.setModels i call (.done (Public.answerModels ev)))
  | admin {l admin} (hl : ∀ conn, l ≠ .others conn)
    (h : AdminServer.step cfg.admin s.adminServer l = some admin) :
    Stepped cfg s (.admin l) (s.withAdmin admin)
  | cli {command} : Stepped cfg s (.cli command) { s with
      gateway := { s.gateway with conn := (s.gateway.conn.outside (command.coro cfg.cli)).2 }
      printed := s.printed ++ [(s.gateway.conn.outside (command.coro cfg.cli)).1] }

theorem Stepped.of_stepModels {l : ModelsLabel} (h : s.stepModels cfg l = some s') :
    Stepped cfg s (.models l) s' := by
  cases l with
  | arrive headers nowMs =>
    cases h
    exact .modelsArrive rfl
  | auth i =>
    simp only [stepModels] at h
    split at h <;> [skip; cases h]
    split at h <;> [skip; cases h]
    obtain ⟨⟨c', conn⟩, hc, rfl⟩ := Option.map_eq_some_iff.mp h
    exact .modelsAuth ‹_› ‹_› hc
  | cancelAuth i =>
    simp only [stepModels] at h
    split at h <;> [skip; cases h]
    split at h <;> cases h
    exact .modelsCancelled ‹_› ‹_›
  | event i ev =>
    simp only [stepModels] at h
    split at h <;> [skip; cases h]
    split at h <;> cases h
    exact .modelsAnswered ‹_› ‹_›

/-- **The inversion of `System.step`.** -/
theorem Stepped.of_step (h : System.step cfg s l = some s') : Stepped cfg s l s' := by
  cases l with
  | chat l =>
    obtain ⟨gateway, hgateway, rfl⟩ := Option.map_eq_some_iff.mp h
    exact .chat hgateway
  | models l => exact .of_stepModels h
  | admin l =>
    have hothers (conn : Conn) : l ≠ .others conn := by
      rintro rfl
      cases h
    change s.stepAdmin cfg l = some s' at h
    rw [Secrets.stepAdmin_eq hothers] at h
    obtain ⟨admin, hadmin, rfl⟩ := Option.map_eq_some_iff.mp h
    exact .admin hothers hadmin
  | cli command =>
    cases h
    exact .cli

end EasyModelGate.System
