import AssetLoom.Path.Basic
/-!
# Media types

The media type of a resource is guessed from the extension of its path, whatever its case.
-/

namespace AssetLoom.MediaType

/-- The media type for an extension. -/
def ofExtension (extension : Option String) : String :=
  match extension.map String.toLower with
  | some "html" | some "htm" | some "tpl" => "text/html"
  | some "css" => "text/css"
  | some "js" | some "mjs" => "text/javascript"
  | some "json" => "application/json"
  | some "txt" => "text/plain"
  | some "svg" => "image/svg+xml"
  | some "png" => "image/png"
  | some "jpg" | some "jpeg" => "image/jpeg"
  | some "gif" => "image/gif"
  | some "webp" => "image/webp"
  | some "avif" => "image/avif"
  | some "ico" => "image/x-icon"
  | some "bmp" => "image/bmp"
  | some "woff" => "font/woff"
  | some "woff2" => "font/woff2"
  | some "ttf" => "font/ttf"
  | some "otf" => "font/otf"
  | _ => "application/octet-stream"

/-- The media type for a path. -/
def ofPath (path : String) : String :=
  ofExtension (Path.extension? path)

/-- Whether a media type is that of an image. -/
def isImage (mediaType : String) : Bool :=
  mediaType.startsWith "image/"

end AssetLoom.MediaType
