/-
Where a call goes: the base URL, less the slashes at its end, with the
request's path and query behind it.
-/
import OnceProxy.Http.Uri
import OnceProxy.Origin.Exchange
import OnceProxy.Url.Parse

namespace OnceProxy.Origin

open Http

/-- The text without slashes at its end. -/
def withoutFinalSlashes (s : String) : String :=
  String.ofList (s.toList.reverse.dropWhile (· = '/')).reverse

/-- The URI of a call. -/
def targetUri (base : Url) (path : String) : Except UriError Uri :=
  Uri.parse (withoutFinalSlashes base.render ++ path)

/-- The host and port that a URI leads to. -/
def place (u : Uri) : String :=
  String.ofList (u.authority.toList.reverse.takeWhile (· ≠ '@')).reverse

end OnceProxy.Origin
