import EasyModelGate.Python.Text

/-! # `proxy/headers.py`: the request headers for the upstream -/

namespace EasyModelGate

/-- Headers by their names: lower case in a client's request. -/
abbrev Headers := List (Str × Str)

/-- `headers.get(name)` -/
def Headers.get (headers : Headers) (name : Str) : Option Str :=
  (headers.find? (·.1 = name)).map Prod.snd

def allowedClientHeaders : List Str := [str "accept", str "user-agent", str "x-request-id"]

def buildUpstreamHeaders (clientHeaders : Headers) (upstreamApiKey : Option Str) : Headers :=
  (allowedClientHeaders.filterMap fun name =>
    ((clientHeaders.get name).filter (· ≠ [])).map fun value => (name, value)) ++
  [(str "Accept-Encoding", str "identity")] ++
  ((upstreamApiKey.filter (· ≠ [])).map fun key =>
    (str "Authorization", str "Bearer " ++ key)).toList

end EasyModelGate
