import Khttpd.Model.WriteBuffer

/-!
# Encoding of response and request headers

`KHttp2::add_method`, `add_status` and the two `add_header`: each appends one HPACK field to
the `KHttp2HeaderFrame` of a stream, creating it when there is none. Strings are always sent
raw, and only the static table is ever referred to.
-/

set_option autoImplicit false

namespace Khttpd

/-- `kgl_header_type`. -/
inductive KglHeaderType
  | host | acceptEncoding | range | server | date | contentLength | lastModified | etag
  | contentRange | contentType | setCookie | pragma | cacheControl | vary | age
  | transferEncoding | contentEncoding | expires | location | keepAlive | altSvc | connection
  | upgrade | expect | status | ifRange | ifModifiedSince | ifNoneMatch | ifMatch
  | ifUnmodifiedSince | cookie | scheme | referer | userAgent | unknow
  deriving DecidableEq, Repr

/-- `kgl_header_type_string[name].low_case`. -/
def KglHeaderType.lowCase : KglHeaderType → Bytes
  | .host => kglString "host"
  | .acceptEncoding => kglString "accept-encoding"
  | .range => kglString "range"
  | .server => kglString "server"
  | .date => kglString "date"
  | .contentLength => kglString "content-length"
  | .lastModified => kglString "last-modified"
  | .etag => kglString "etag"
  | .contentRange => kglString "content-range"
  | .contentType => kglString "content-type"
  | .setCookie => kglString "set-cookie"
  | .pragma => kglString "pragma"
  | .cacheControl => kglString "cache-control"
  | .vary => kglString "vary"
  | .age => kglString "age"
  | .transferEncoding => kglString "transfer-encoding"
  | .contentEncoding => kglString "content-encoding"
  | .expires => kglString "expires"
  | .location => kglString "location"
  | .keepAlive => kglString "keep-alive"
  | .altSvc => kglString "alt-svc"
  | .connection => kglString "connection"
  | .upgrade => kglString "upgrade"
  | .expect => kglString "expect"
  | .status => kglString "status"
  | .ifRange => kglString "if-range"
  | .ifModifiedSince => kglString "if-modified-since"
  | .ifNoneMatch => kglString "if-none-match"
  | .ifMatch => kglString "if-match"
  | .ifUnmodifiedSince => kglString "if-unmodified-since"
  | .cookie => kglString "cookie"
  | .scheme => kglString ":scheme"
  | .referer => kglString "referer"
  | .userAgent => kglString "user-agent"
  | .unknow => kglString "unknow"

/-- `kgl_header_type_string[name].http2_index`, filled in by `kgl_init_header_string` for every
type but the last. -/
def KglHeaderType.http2Index : KglHeaderType → ℕ
  | .unknow => 0
  | name => findHttp2StaticTable name.lowCase

/-- `http_methods`. -/
def httpMethods : List Bytes :=
  ["UNSET", "GET", "HEAD", "POST", "OPTIONS", "PUT", "DELETE", "TRACE", "PROPFIND",
   "PROPPATCH", "MKCOL", "COPY", "MOVE", "LOCK", "UNLOCK", "ACL", "REPORT",
   "VERSION_CONTROL", "CHECKIN", "CHECKOUT", "UNCHECKOUT", "SEARCH", "MKWORKSPACE", "UPDATE",
   "LABEL", "MERGE", "BASELINE_CONTROL", "MKACTIVITY", "CONNECT", "PURGE", "PATCH",
   "SUBSCRIBE", "UNSUBSCRIBE", "PRI"].map kglString

/-- `KHttpKeyValue::get_method(meth)`. -/
def getMethod (meth : ℕ) : Bytes :=
  httpMethods.getD (if meth ≥ 34 then 0 else meth) []

/-- `METH_GET` and `METH_POST`. -/
def methGet : ℕ := 1
@[inherit_doc methGet] def methPost : ℕ := 3

/-- `kgl_http_v2_indexed(i)`. -/
def indexed (i : ℕ) : UInt8 := UInt8.ofNat (128 + i)

/-- `kgl_http_v2_inc_indexed(i)`. -/
def incIndexed (i : ℕ) : UInt8 := UInt8.ofNat (64 + i)

/-- `KGL_HTTP_V2_ENCODE_RAW`. -/
def encodeRaw : UInt8 := 0

/-- `sprintf("%03u", status_code)`. -/
def statusDigits (statusCode : ℕ) : Bytes :=
  let digits := (Nat.toDigits 10 statusCode).map fun c => UInt8.ofNat c.toNat
  List.replicate (3 - digits.length) 48 ++ digits

namespace KHttp2HeaderFrame

/-- `write_int(KGL_HTTP_V2_ENCODE_RAW, kgl_http_v2_prefix(7), len)` and the `write` of the
string, as every `add_*` ends. -/
def writeString (f : KHttp2HeaderFrame) (val : Bytes) : KHttp2HeaderFrame :=
  (f.writeInt encodeRaw 127 val.length).write val

/-- `KHttp2::add_method`. -/
def addMethod (f : KHttp2HeaderFrame) (meth : ℕ) : KHttp2HeaderFrame :=
  if meth = methGet then f.write [indexed 2]
  else if meth = methPost then f.write [indexed 3]
  else (f.write [incIndexed 2]).writeString (getMethod meth)

/-- The static index `add_status` knows for a status code, or `0`. -/
def statusIndex (statusCode : ℕ) : ℕ :=
  match statusCode with
  | 200 => 8
  | 204 => 9
  | 206 => 10
  | 304 => 11
  | 400 => 12
  | 404 => 13
  | 500 => 14
  | _ => 0

/-- `KHttp2::add_status`: the field goes before everything added so far. An unlisted code is
printed with three digits. -/
def addStatus (f : KHttp2HeaderFrame) (statusCode : ℕ) : KHttp2HeaderFrame :=
  if statusIndex statusCode ≠ 0 then f.insert [indexed (statusIndex statusCode)]
  else f.insert (incIndexed 8 :: (encodeRaw ||| 3) :: (statusDigits statusCode).take 3)

/-- `KHttp2::add_header_cookie`. -/
def addHeaderCookie (f : KHttp2HeaderFrame) (val : Bytes) : KHttp2HeaderFrame :=
  (f.write [incIndexed 32]).writeString val

/-- `KHttp2::add_header(ctx, kgl_header_type, val, val_len)`. -/
def addKnownHeader (f : KHttp2HeaderFrame) (name : KglHeaderType) (val : Bytes) :
    KHttp2HeaderFrame :=
  if name = .cookie then f.addHeaderCookie val
  else if name.http2Index = 0 then ((f.write [0]).writeString name.lowCase).writeString val
  else (f.write [incIndexed name.http2Index]).writeString val

/-- The header `Upgrade: h2` or `Upgrade: h2c`. -/
def isUpgradeH2 (name val : Bytes) : Bool :=
  name.length = 7 && caseString name == kglString "upgrade" &&
    (val.map toLower == kglString "h2" || val.map toLower == kglString "h2c")

/-- `KHttp2::add_header(ctx, name, name_len, val, val_len)`; `name` ends with a NUL, as
`strcasecmp` needs it. -/
def addHeader (f : KHttp2HeaderFrame) (name val : Bytes) : KHttp2HeaderFrame :=
  if name.length = 6 && caseString name == kglString "cookie" then f.addHeaderCookie val
  else if isUpgradeH2 name val then f
  else (((f.write [0]).writeInt encodeRaw 127 name.length).writeLowerString name).writeString val

end KHttp2HeaderFrame

end Khttpd
