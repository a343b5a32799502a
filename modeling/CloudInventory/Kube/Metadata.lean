import CloudInventory.Error
import CloudInventory.Json.Parser

/-!
The metadata of the machine that the collector runs on, as its server sends them: a response with
a status, whose body is a JSON text if the status is one of success.
-/

namespace CloudInventory.Kube

/-- The header that a request for metadata has to carry. -/
def metadataHeader : String × String := ("Metadata-Flavor", "Google")

/-- A response of the metadata server. -/
structure Response where
  status : Nat
  body : String
  deriving DecidableEq, Repr

namespace Response

/-- Why a response holds no metadata. -/
inductive Fault where
  | refused (status : Nat)
  | unreadable
  deriving DecidableEq, Repr

/-- The registered reasons of statuses. -/
def reasons : List (Nat × String) :=
  [(100, "Continue"), (101, "Switching Protocols"), (102, "Processing"), (200, "OK"),
    (201, "Created"), (202, "Accepted"), (203, "Non Authoritative Information"),
    (204, "No Content"), (205, "Reset Content"), (206, "Partial Content"), (207, "Multi-Status"),
    (208, "Already Reported"), (226, "IM Used"), (300, "Multiple Choices"),
    (301, "Moved Permanently"), (302, "Found"), (303, "See Other"), (304, "Not Modified"),
    (305, "Use Proxy"), (307, "Temporary Redirect"), (308, "Permanent Redirect"),
    (400, "Bad Request"), (401, "Unauthorized"), (402, "Payment Required"), (403, "Forbidden"),
    (404, "Not Found"), (405, "Method Not Allowed"), (406, "Not Acceptable"),
    (407, "Proxy Authentication Required"), (408, "Request Timeout"), (409, "Conflict"),
    (410, "Gone"), (411, "Length Required"), (412, "Precondition Failed"),
    (413, "Payload Too Large"), (414, "URI Too Long"), (415, "Unsupported Media Type"),
    (416, "Range Not Satisfiable"), (417, "Expectation Failed"), (418, "I'm a teapot"),
    (421, "Misdirected Request"), (422, "Unprocessable Entity"), (423, "Locked"),
    (424, "Failed Dependency"), (425, "Too Early"), (426, "Upgrade Required"),
    (428, "Precondition Required"), (429, "Too Many Requests"),
    (431, "Request Header Fields Too Large"), (451, "Unavailable For Legal Reasons"),
    (500, "Internal Server Error"), (501, "Not Implemented"), (502, "Bad Gateway"),
    (503, "Service Unavailable"), (504, "Gateway Timeout"), (505, "HTTP Version Not Supported"),
    (506, "Variant Also Negotiates"), (507, "Insufficient Storage"), (508, "Loop Detected"),
    (510, "Not Extended"), (511, "Network Authentication Required")]

/-- The text of a status: its number and its reason. -/
def statusText (status : Nat) : String :=
  toString status ++ " " ++ (reasons.lookup status).getD "<unknown status code>"

/-- The wording of a fault. -/
def Fault.message : Fault → String
  | refused status => "metadata server returned " ++ statusText status
  | unreadable => "request failed"

/-- A status is one of success. -/
def isSuccess (status : Nat) : Bool := 200 ≤ status && status < 300

/-- The metadata that a response holds. -/
def metadata (r : Response) : Except Fault Json :=
  if isSuccess r.status then
    match Json.read? r.body with
    | some j => .ok j
    | none => .error .unreadable
  else .error (.refused r.status)

/-- What a collector learns from a response. -/
def answer (r : Response) : Except CollectorError Json :=
  r.metadata.mapError fun f => .metadata f.message

end Response

end CloudInventory.Kube
