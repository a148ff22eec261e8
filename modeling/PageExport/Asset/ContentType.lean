import PageExport.Files.Path
import PageExport.Unicode.Lowercase

/-!
Content types of files by the extension of their names. A name is taken as a link: what comes before
a colon is its scheme, and a link with the scheme for data holds the data themselves.
-/
namespace PageExport.ContentType

/-- The content types of the extensions that have one. -/
def known : List (String × String) := [
  ("js", "application/javascript"), ("mjs", "application/javascript"),
  ("json", "application/json"), ("webmanifest", "application/manifest+json"),
  ("doc", "application/msword"), ("dot", "application/msword"), ("wiz", "application/msword"),
  ("nq", "application/n-quads"), ("nt", "application/n-triples"),
  ("a", "application/octet-stream"), ("bin", "application/octet-stream"),
  ("dll", "application/octet-stream"), ("exe", "application/octet-stream"),
  ("o", "application/octet-stream"), ("obj", "application/octet-stream"),
  ("so", "application/octet-stream"), ("oda", "application/oda"), ("pdf", "application/pdf"),
  ("p7c", "application/pkcs7-mime"), ("ai", "application/postscript"),
  ("eps", "application/postscript"), ("ps", "application/postscript"),
  ("trig", "application/trig"), ("m3u", "application/vnd.apple.mpegurl"),
  ("m3u8", "application/vnd.apple.mpegurl"), ("xlb", "application/vnd.ms-excel"),
  ("xls", "application/vnd.ms-excel"), ("pot", "application/vnd.ms-powerpoint"),
  ("ppa", "application/vnd.ms-powerpoint"), ("pps", "application/vnd.ms-powerpoint"),
  ("ppt", "application/vnd.ms-powerpoint"), ("pwz", "application/vnd.ms-powerpoint"),
  ("wasm", "application/wasm"), ("bcpio", "application/x-bcpio"), ("cpio", "application/x-cpio"),
  ("csh", "application/x-csh"), ("dvi", "application/x-dvi"), ("gtar", "application/x-gtar"),
  ("hdf", "application/x-hdf"), ("h5", "application/x-hdf5"), ("latex", "application/x-latex"),
  ("mif", "application/x-mif"), ("cdf", "application/x-netcdf"), ("nc", "application/x-netcdf"),
  ("p12", "application/x-pkcs12"), ("pfx", "application/x-pkcs12"),
  ("ram", "application/x-pn-realaudio"), ("sh", "application/x-sh"),
  ("shar", "application/x-shar"), ("swf", "application/x-shockwave-flash"),
  ("sv4cpio", "application/x-sv4cpio"), ("sv4crc", "application/x-sv4crc"),
  ("tar", "application/x-tar"), ("tcl", "application/x-tcl"), ("tex", "application/x-tex"),
  ("texi", "application/x-texinfo"), ("texinfo", "application/x-texinfo"),
  ("roff", "application/x-troff"), ("t", "application/x-troff"), ("tr", "application/x-troff"),
  ("man", "application/x-troff-man"), ("me", "application/x-troff-me"),
  ("ms", "application/x-troff-ms"), ("ustar", "application/x-ustar"),
  ("src", "application/x-wais-source"), ("rdf", "application/xml"), ("wsdl", "application/xml"),
  ("xpdl", "application/xml"), ("xsl", "application/xml"), ("zip", "application/zip"),
  ("3gp", "audio/3gpp"), ("3gpp", "audio/3gpp"), ("3g2", "audio/3gpp2"), ("3gpp2", "audio/3gpp2"),
  ("aac", "audio/aac"), ("adts", "audio/aac"), ("ass", "audio/aac"), ("loas", "audio/aac"),
  ("au", "audio/basic"), ("snd", "audio/basic"), ("mp2", "audio/mpeg"), ("mp3", "audio/mpeg"),
  ("opus", "audio/opus"), ("aif", "audio/x-aiff"), ("aifc", "audio/x-aiff"),
  ("aiff", "audio/x-aiff"), ("ra", "audio/x-pn-realaudio"), ("wav", "audio/x-wav"),
  ("avif", "image/avif"), ("bmp", "image/bmp"), ("gif", "image/gif"), ("heic", "image/heic"),
  ("heif", "image/heif"), ("ief", "image/ief"), ("jpe", "image/jpeg"), ("jpeg", "image/jpeg"),
  ("jpg", "image/jpeg"), ("png", "image/png"), ("svg", "image/svg+xml"), ("tif", "image/tiff"),
  ("tiff", "image/tiff"), ("ico", "image/vnd.microsoft.icon"), ("ras", "image/x-cmu-raster"),
  ("pnm", "image/x-portable-anymap"), ("pbm", "image/x-portable-bitmap"),
  ("pgm", "image/x-portable-graymap"), ("ppm", "image/x-portable-pixmap"), ("rgb", "image/x-rgb"),
  ("xbm", "image/x-xbitmap"), ("xpm", "image/x-xpixmap"), ("xwd", "image/x-xwindowdump"),
  ("eml", "message/rfc822"), ("mht", "message/rfc822"), ("mhtml", "message/rfc822"),
  ("nws", "message/rfc822"), ("css", "text/css"), ("csv", "text/csv"), ("htm", "text/html"),
  ("html", "text/html"), ("n3", "text/n3"), ("bat", "text/plain"), ("c", "text/plain"),
  ("h", "text/plain"), ("ksh", "text/plain"), ("pl", "text/plain"), ("srt", "text/plain"),
  ("txt", "text/plain"), ("rtx", "text/richtext"), ("tsv", "text/tab-separated-values"),
  ("vtt", "text/vtt"), ("etx", "text/x-setext"), ("sgm", "text/x-sgml"), ("sgml", "text/x-sgml"),
  ("vcf", "text/x-vcard"), ("xml", "text/xml"), ("mp4", "video/mp4"), ("m1v", "video/mpeg"),
  ("mpa", "video/mpeg"), ("mpe", "video/mpeg"), ("mpeg", "video/mpeg"), ("mpg", "video/mpeg"),
  ("mov", "video/quicktime"), ("qt", "video/quicktime"), ("webm", "video/webm"),
  ("avi", "video/x-msvideo"), ("movie", "video/x-sgi-movie")]

/-- Extensions that are short for two of them. -/
def expansions : List (String × String) := [
  (".svgz", ".svg.gz"), (".tgz", ".tar.gz"), (".taz", ".tar.gz"), (".tz", ".tar.gz"),
  (".tbz2", ".tar.bz2"), (".txz", ".tar.xz")]

/-- The extensions of compressed files. -/
def compressions : List String := [".gz", ".Z", ".bz2", ".xz", ".br"]

/-- A name as its stem and its extension, which starts with the last dot. Dots at the start of the
name start no extension. -/
def splitExtension (name : Text) : Text × Text :=
  let dots := name.takeWhile (· = '.')
  let body := name.dropWhile (· = '.')
  match body.reverse.dropWhile (· ≠ '.') with
  | _ :: before => (dots ++ before.reverse, body.drop before.length)
  | [] => (name, [])

/-- A link as its scheme, which is not empty, and the rest. -/
def splitScheme (link : Text) : Text × Text :=
  match link.dropWhile (· ≠ ':') with
  | _ :: rest =>
    let scheme := link.takeWhile (· ≠ ':')
    if scheme.isEmpty then ([], link) else (Unicode.lowercase scheme, rest)
  | [] => ([], link)

/-- The stem and the extension, once an extension that is short for two of them is written out. -/
def expand (name : Text × Text) : Text × Text :=
  match expansions.lookup (String.ofList (Unicode.lowercase name.2)) with
  | some long => splitExtension (name.1 ++ long.toList)
  | none => name

/-- The stem and the extension of a file that may be compressed. -/
def uncompressed (name : Text × Text) : Text × Text :=
  if compressions.contains (String.ofList name.2) then splitExtension name.1 else name

/-- The content type of a name, empty if none is known. Data before whose comma there is no slash, as
in any name, are plain text. -/
def ofName (name : String) : String :=
  match splitScheme name.toList with
  | (['d', 'a', 't', 'a'], rest) => if rest.contains ',' then "text/plain" else ""
  | (_, rest) =>
    let (_, extension) := uncompressed (expand (splitExtension rest))
    (known.lookup (String.ofList (Unicode.lowercase (extension.drop 1)))).getD ""

end PageExport.ContentType
