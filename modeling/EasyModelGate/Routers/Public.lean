import EasyModelGate.Proxy.Relay

/-! # `routers/public.py`: `GET /v1/models` -/

namespace EasyModelGate

/-- Where the request is. -/
inductive ModelsPhase
  /-- `Depends(require_auth)` -/
  | authenticating (c : Db AuthContext) (nowMs : Int)
  /-- `await upstream.client.get("/v1/models", headers=headers)` -/
  | asking (headers : Headers)
  | done (r : Except Exn Response)

structure ModelsCall where
  headers : Headers
  phase : ModelsPhase

/-- How the environment resolves the call of the upstream. -/
inductive ModelsEvent
  | response (resp : UpstreamResponse)
  | httpTimeout
  | httpError
  | cancelled

namespace Public

/-- `Response(content=…, status_code=…, media_type=…)`: the header is encoded as Latin-1. -/
def modelsResponse (resp : UpstreamResponse) : Except Exn Response :=
  if resp.mediaType.isLatin1 then
    .ok { statusCode := resp.status, body := .raw resp.content resp.mediaType }
  else .error (.py .unicodeEncodeError)

/-- From the end of `require_auth` to the call of the upstream. -/
def askModels (env : RelayEnv) (headers : Headers) : ModelsPhase :=
  let headers := buildUpstreamHeaders headers env.upstreamApiKey
  match env.buildRequest headers [] with
  | .ok () => .asking headers
  | .error e => .done (.error (.py e))

/-- Where the request is after a stretch of `require_auth`. -/
def settleModels (env : RelayEnv) (headers : Headers) (nowMs : Int) : Db AuthContext → ModelsPhase
  | .ret _ => askModels env headers
  | .raise e => .done (.error e)
  | c => .authenticating c nowMs

/-- The `except` clauses around the call, and the response. -/
def answerModels : ModelsEvent → Except Exn Response
  | .response resp => modelsResponse resp
  | .httpTimeout => .error timedOut
  | .httpError => .error cannotConnect
  | .cancelled => .error (.py .cancelledError)

end Public
end EasyModelGate
