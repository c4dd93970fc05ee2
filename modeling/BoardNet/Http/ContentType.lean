import BoardNet.Text.Ascii
import BoardNet.Text.Split

namespace BoardNet.Http

def contentTypes : List (String × String) :=
  [("html", "text/html"),
    ("htm", "text/html"),
    ("css", "text/css"),
    ("js", "application/javascript"),
    ("json", "application/json"),
    ("png", "image/png"),
    ("jpg", "image/jpeg"),
    ("jpeg", "image/jpeg"),
    ("gif", "image/gif"),
    ("ico", "image/x-icon"),
    ("svg", "image/svg+xml"),
    ("woff", "font/woff"),
    ("woff2", "font/woff2"),
    ("txt", "text/plain")]

/-- What follows the last dot of a path, if there is one. -/
def extension? (path : String) : Option String :=
  match (Text.splitAt '.' path.toList).reverse with
  | last :: _ :: _ => some (String.ofList last)
  | _ => none

/-- The content type of a path: that of its extension up to case, or plain text. -/
def contentType (path : String) : String :=
  let known := extension? path >>= fun extension =>
    contentTypes.find? fun entry => Text.sameIgnoringCase entry.1 extension
  match known with
  | some (_, contentType) => contentType
  | none => "text/plain"

end BoardNet.Http
