/-!
# Requests and replies

The messages that go to a server and come back, as far as a session looks at them.
-/

namespace PasswordVault
namespace Http

inductive Method where
  | get
  | post
deriving DecidableEq, Repr

def Method.name : Method → String
  | .get => "GET"
  | .post => "POST"

structure Request where
  method : Method
  url : String
  authorization : Option String := none
  contentType : Option String := none
  body : String := ""
deriving DecidableEq, Repr

/-- What comes back. A body is a text here; bytes that are none can be read as JSON no more than a body that
breaks off. -/
inductive Reply where
  | response (status : Nat) (body : String)
  /-- The connection broke after the status, before the end of the body. -/
  | cut (status : Nat)
  /-- The connection broke before anything came. -/
  | broken
deriving DecidableEq, Repr

/-- What stands for a body that cannot be told. -/
def unknownBody : String := "unknown"

/-! ## Status codes -/

def isSuccess (status : Nat) : Bool := 200 ≤ status ∧ status < 300

/-- The standard phrases for status codes. -/
def reasons : List (Nat × String) :=
  [(100, "Continue"), (101, "Switching Protocols"), (102, "Processing"), (200, "OK"), (201, "Created"),
    (202, "Accepted"), (203, "Non Authoritative Information"), (204, "No Content"), (205, "Reset Content"),
    (206, "Partial Content"), (207, "Multi-Status"), (208, "Already Reported"), (226, "IM Used"),
    (300, "Multiple Choices"), (301, "Moved Permanently"), (302, "Found"), (303, "See Other"),
    (304, "Not Modified"), (305, "Use Proxy"), (307, "Temporary Redirect"), (308, "Permanent Redirect"),
    (400, "Bad Request"), (401, "Unauthorized"), (402, "Payment Required"), (403, "Forbidden"),
    (404, "Not Found"), (405, "Method Not Allowed"), (406, "Not Acceptable"),
    (407, "Proxy Authentication Required"), (408, "Request Timeout"), (409, "Conflict"), (410, "Gone"),
    (411, "Length Required"), (412, "Precondition Failed"), (413, "Payload Too Large"),
    (414, "URI Too Long"), (415, "Unsupported Media Type"), (416, "Range Not Satisfiable"),
    (417, "Expectation Failed"), (418, "I'm a teapot"), (421, "Misdirected Request"),
    (422, "Unprocessable Entity"), (423, "Locked"), (424, "Failed Dependency"), (425, "Too Early"),
    (426, "Upgrade Required"), (428, "Precondition Required"), (429, "Too Many Requests"),
    (431, "Request Header Fields Too Large"), (451, "Unavailable For Legal Reasons"),
    (500, "Internal Server Error"), (501, "Not Implemented"), (502, "Bad Gateway"),
    (503, "Service Unavailable"), (504, "Gateway Timeout"), (505, "HTTP Version Not Supported"),
    (506, "Variant Also Negotiates"), (507, "Insufficient Storage"), (508, "Loop Detected"),
    (510, "Not Extended"), (511, "Network Authentication Required")]

def statusText (status : Nat) : String :=
  s!"{status} " ++ (reasons.lookup status).getD "<unknown status code>"

/-! ## Addresses and headers -/

/-- An address on a server, whose own address may end in slashes. -/
def address (server path : String) : String :=
  String.ofList (server.toList.reverse.dropWhile (· = '/')).reverse ++ path

/-- Whether a text can stand in a header: control characters cannot, except the tab. -/
def isHeaderText (s : String) : Bool := s.toList.all fun c => c = '\t' || (' ' ≤ c && c.toNat ≠ 127)

end Http
end PasswordVault
