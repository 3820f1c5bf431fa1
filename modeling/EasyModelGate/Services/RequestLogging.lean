import EasyModelGate.Db.Dao

/-! # `services/request_logging.py` -/

namespace EasyModelGate

/-- `error_message` as it is stored: at most 500 characters, and NULL when it is empty. -/
def clipErrorMessage (message : Option Str) : Option Str :=
  message.bind fun m => if m.take 500 = [] then none else some (m.take 500)

/-- What `persist_request_log` adds to `token_used`: only a positive `int` counts. -/
def tokenIncrement (record : RequestLog Json) : Option Int :=
  record.totalTokens.asInt?.filter (0 < ·)

/-- The second half of `persist_request_log`. -/
def chargeAndCommit (record : RequestLog Json) (keyId : Option Int) : Db Unit := do
  match keyId, tokenIncrement record with
  | some keyId, some n =>
    let _ ← Db.execute (.addTokenUsed n keyId)
    Db.commit
  | _, _ => Db.commit

/-- `persist_request_log`, with `token_increment_for_key_id`. -/
def persistRequestLog (record : RequestLog Json) (keyId : Option Int) : Db Unit := do
  let _ ← Db.execute
    (.insertRequestLog { record with errorMessage := clipErrorMessage record.errorMessage })
  chargeAndCommit record keyId

end EasyModelGate
