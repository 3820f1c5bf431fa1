import EasyModelGate.Core.Security
import EasyModelGate.Routers.AdminUsage

/-! # `routers/admin_requests.py` -/

namespace EasyModelGate

namespace AdminRequests

def defaultLimit : Int := 50
def maxLimit : Int := 200

/-- `_parse_bool` -/
def parseBool (raw : Option Str) : Bool := (raw.getD []).lower ∈ [str "1", str "true", str "yes"]

def parseLimit (raw : Option Str) : Except Exn Int :=
  match raw with
  | none => .ok defaultLimit
  | some raw => do
    let limit ← Admin.parseQueryInt raw "limit"
    if 1 ≤ limit ∧ limit ≤ maxLimit then return limit
    else .error (Admin.refuse 400 (str "limit must be between 1 and 200") "invalid_limit")

/-- A row of `list_request_logs` with the mask of the key in place of its prefix. -/
def itemPayload (hex : Uuid → Str) (item : RequestLogItem) : Json :=
  let r := item.row.val
  .obj [(str "id", .int item.row.id), (str "request_id", .str (hex r.requestId)),
    (str "started_at", .int r.startedAt), (str "finished_at", Json.ofInt? r.finishedAt),
    (str "user_id", Json.ofInt? r.userId), (str "username", Json.ofOption item.username),
    (str "api_key_id", Json.ofInt? r.apiKeyId), (str "key_name", Json.ofOption item.keyName),
    (str "model", Json.ofOption r.model), (str "endpoint", Json.ofOption r.endpoint),
    (str "status_code", Json.ofInt? r.statusCode),
    (str "upstream_status_code", Json.ofInt? r.upstreamStatusCode),
    (str "stream", (r.stream.map fun n => Json.bool (n ≠ 0)).getD .null),
    (str "prompt_tokens", r.promptTokens.toJson),
    (str "completion_tokens", r.completionTokens.toJson),
    (str "total_tokens", r.totalTokens.toJson), (str "cached_tokens", r.cachedTokens.toJson),
    (str "duration_ms", r.durationMs.toJson), (str "queue_wait_ms", r.queueWaitMs.toJson),
    (str "upstream_duration_ms", r.upstreamDurationMs.toJson), (str "ttft_ms", r.ttftMs.toJson),
    (str "finish_reason", Json.ofOption r.finishReason),
    (str "error_type", Json.ofOption r.errorType),
    (str "masked_key", Json.ofOption ((item.keyPrefix.filter (· ≠ [])).map maskKey))]

def recentRequests (hex : Uuid → Str) (req : AdminRequest) : Db Json := do
  let limit ← Db.lift (parseLimit (req.param "limit"))
  let userId ← Admin.existingUser (req.param "user_id")
  let apiKeyId ← Admin.existingKey (req.param "key_id")
  let statusCode ← Db.lift ((req.param "status_code").mapM (Admin.parseQueryInt · "status_code"))
  let rows ← Dao.listRequestLogs
    { errorsOnly := parseBool (req.param "errors_only"), userId, apiKeyId,
      model := req.param "model"
      statusCode, errorType := req.param "error_type" } limit
  return .obj [(str "items", .arr (rows.map (itemPayload hex)))]

end AdminRequests
end EasyModelGate
