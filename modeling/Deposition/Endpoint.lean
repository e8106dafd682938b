import Deposition.Failure
import Deposition.Url.Parser

/-!
# Where the server is

A user gives the address of the server's page. The socket of the jobs is below that page – same
host and port, a last name `socket` – and the catalog is at the root of the host. Whoever has a
credential sends it to both as a cookie.
-/

namespace Deposition

namespace Endpoint

/-- The address of the server's page, which has to be one that a browser would fetch. -/
def page (address : String) : Except Failure Url :=
  match Url.parse address with
  | .error e => .error (.url e)
  | .ok url =>
    if url.scheme = "http" ∨ url.scheme = "https" then .ok url else .error (.scheme url.scheme)

/-- The scheme of a socket beside a page of this scheme. -/
def socketScheme? (scheme : String) : Option String :=
  if scheme = "http" then some "ws" else if scheme = "https" then some "wss" else none

/-- The path of a page with a slash at its end. -/
def asDirectory : UrlPath → UrlPath
  | .opaquePath text => .opaquePath text
  | .segments names =>
    if names.getLast? = some "" then .segments names else .segments (names ++ [""])

/-- The address of the socket below a page. -/
def socket (page : Url) : Except Failure Url :=
  match socketScheme? page.scheme with
  | none => .error (.scheme page.scheme)
  | some scheme =>
    match Url.sibling { page with path := asDirectory page.path } "socket" with
    | .error e => .error (.url e)
    | .ok url => .ok { url with scheme }

/-- The address of the catalog. -/
def molecules (page : Url) : Except Failure Url :=
  match Url.atRoot page "molecules" with
  | .error e => .error (.url e)
  | .ok url => .ok url

/-- The cookie that carries a credential. -/
def cookie (token : String) : String := "id=" ++ token

/-- Whether a character can stand in a header. -/
def isHeaderChar (c : Char) : Bool := c == '\t' || (0x20 ≤ c.toNat && c.toNat != 0x7f)

/-- The cookie that carries a credential, if there is a credential and a header can hold it. -/
def cookieHeader? (token : Option String) : Option String :=
  (token.map cookie).filter fun value => value.toList.all isHeaderChar

end Endpoint

end Deposition
