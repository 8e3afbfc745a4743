/- digest: The file types of the Library, file names, and data URLs. -/
import AverQel.Foundation.Text

namespace AverQel.Library

open Foundation

/-- `_LIBRARY_CONTENT_TYPES` -/
def libraryContentTypes : List String :=
  ["text/css", "text/csv", "text/html", "text/javascript", "text/markdown", "text/plain",
   "text/sql", "text/x-csv", "text/x-diff", "text/x-java", "text/x-python", "text/x-yaml",
   "text/x-markdown", "text/tab-separated-values", "text/xml", "application/javascript",
   "application/json", "application/sql", "application/xml", "application/yaml",
   "application/x-yaml", "application/x-ipynb+json", "application/x-sh",
   "application/typescript",
   "application/vnd.openxmlformats-officedocument.presentationml.presentation",
   "application/msword", "application/vnd.ms-word", "application/vnd.ms-powerpoint",
   "application/vnd.oasis.opendocument.text", "application/vnd.oasis.opendocument.presentation",
   "application/rtf", "text/rtf", "application/pdf", "application/zip", "application/gzip",
   "application/x-gzip", "application/x-tar", "application/x-7z-compressed",
   "application/x-rar-compressed",
   "application/vnd.openxmlformats-officedocument.spreadsheetml.sheet",
   "application/vnd.openxmlformats-officedocument.wordprocessingml.document",
   "application/vnd.ms-excel", "application/vnd.oasis.opendocument.spreadsheet", "image/svg+xml",
   "image/png", "image/jpeg", "image/webp", "image/gif", "image/tiff", "image/bmp", "image/avif",
   "video/mp4", "video/webm", "video/quicktime", "video/x-m4v", "video/x-msvideo",
   "video/x-matroska", "audio/mpeg", "audio/wav", "audio/ogg", "audio/mp4", "audio/x-wav",
   "audio/flac", "audio/x-m4a", "application/octet-stream"]

/-- The extensions of each content type that `_content_type_for_name` knows. -/
def extensionsByContentType : List (List String × String) :=
  [(["md", "mdx"], "text/markdown"), (["json"], "application/json"), (["csv"], "text/csv"),
   (["tsv"], "text/tab-separated-values"), (["yaml", "yml"], "application/yaml"),
   (["toml", "ini", "cfg", "log", "go", "rs", "c", "h", "cpp", "cc", "cxx"], "text/plain"),
   (["xml"], "application/xml"), (["html", "htm", "xhtml"], "text/html"), (["css"], "text/css"),
   (["sql"], "text/sql"), (["py"], "text/x-python"), (["ipynb"], "application/x-ipynb+json"),
   (["js", "ts", "tsx", "jsx", "mjs", "cjs"], "text/javascript"),
   (["sh", "bash"], "application/x-sh"), (["java"], "text/x-java"),
   (["diff", "patch"], "text/x-diff"), (["pdf"], "application/pdf"),
   (["docx"], "application/vnd.openxmlformats-officedocument.wordprocessingml.document"),
   (["doc"], "application/msword"),
   (["pptx"], "application/vnd.openxmlformats-officedocument.presentationml.presentation"),
   (["ppt"], "application/vnd.ms-powerpoint"),
   (["xlsx"], "application/vnd.openxmlformats-officedocument.spreadsheetml.sheet"),
   (["xls"], "application/vnd.ms-excel"),
   (["ods"], "application/vnd.oasis.opendocument.spreadsheet"),
   (["odt"], "application/vnd.oasis.opendocument.text"),
   (["odp"], "application/vnd.oasis.opendocument.presentation"), (["rtf"], "application/rtf"),
   (["zip"], "application/zip"), (["tar"], "application/x-tar"),
   (["gz", "tgz"], "application/gzip"), (["7z"], "application/x-7z-compressed"),
   (["rar"], "application/x-rar-compressed"), (["svg"], "image/svg+xml"), (["png"], "image/png"),
   (["jpg", "jpeg"], "image/jpeg"), (["webp"], "image/webp"), (["tif", "tiff"], "image/tiff"),
   (["bmp"], "image/bmp"), (["avif"], "image/avif"), (["mp4"], "video/mp4"),
   (["webm"], "video/webm"), (["mov"], "video/quicktime"), (["m4v"], "video/x-m4v"),
   (["avi"], "video/x-msvideo"), (["mkv"], "video/x-matroska"), (["mp3"], "audio/mpeg"),
   (["wav"], "audio/wav"), (["ogg"], "audio/ogg"), (["m4a"], "audio/x-m4a"),
   (["flac"], "audio/flac")]

/-- What stands behind the last dot of a name; `none` without a dot. -/
def lastExtension (name : String) : Option String :=
  if '.' ∈ name.toList then
    some (String.ofList (name.toList.rtakeWhile (fun c => c ≠ '.')))
  else none

def stem (name : String) : String :=
  String.ofList ((name.toList.rdropWhile (fun c => c ≠ '.')).dropLast)

/-- `_content_type_for_name` -/
def contentTypeForName (lower : String → String) (name : String) : String :=
  let extension := ((lastExtension name).map lower).getD ""
  ((extensionsByContentType.find? (fun entry => entry.1.contains extension)).map Prod.snd).getD
    "text/plain"

def isTextType (contentType : String) : Bool :=
  ["text/", "application/json", "application/xml", "application/yaml"].any
    (fun start => start.toList.isPrefixOf contentType.toList)

def wordType : String := "application/vnd.openxmlformats-officedocument.wordprocessingml.document"
def slidesType : String :=
  "application/vnd.openxmlformats-officedocument.presentationml.presentation"
def sheetType : String := "application/vnd.openxmlformats-officedocument.spreadsheetml.sheet"

def officeTypes : List String := [wordType, slidesType, sheetType]

/-- `WorkspaceFileCreate.safe_name`; `none` is the `ValueError`. -/
def safeName (value : String) : Option String :=
  let normalized := Text.strip value
  let cs := normalized.toList
  if cs ≠ [] ∧ cs.length ≤ 255 ∧
      cs.all (fun c => 32 ≤ c.toNat && c.toNat ≠ 127 && c ≠ '/' && c ≠ '\\') ∧
      normalized ≠ "." ∧ normalized ≠ ".." then some normalized
  else none

end AverQel.Library
