import Khttpd.Model.Text

/-!
# List-valued header fields

`KHttpFieldValue`, and the loops of `KSink::parse_header` over `Accept-Encoding`, `Connection` and
`Cache-Control`. A `KHttpFieldValue` is given by the bytes from `val` to `end`.
-/

set_option autoImplicit false

namespace Khttpd

/-- `strncasecmp(a, b, n) == 0`. -/
def strncasecmpSame : ℕ → Bytes → Bytes → Bool
  | 0, _, _ => true
  | n + 1, a, b =>
    toLower (a.getD 0 0) == toLower (b.getD 0 0) &&
      (a.getD 0 0 == 0 || strncasecmpSame n (a.drop 1) (b.drop 1))

namespace KHttpFieldValue

/-- The constructor. Its loop over white space runs while `val` is behind `end`: never. -/
def init (val : Bytes) : Bytes := val

/-- `is`. -/
def is (val field : Bytes) : Bool :=
  if val.length < field.length then false else strncasecmpSame field.length val field

/-- `get_field_end`: the bytes before it, and the ones behind the comma that it points to. -/
def getFieldEnd (val : Bytes) : Bytes × Option Bytes :=
  match memchr 44 val with
  | none => (val, none)
  | some (field, rest) => (field, some rest)

/-- `next`: the new `val`, unless the field ended at `end`. -/
def next (val : Bytes) : Option Bytes := (getFieldEnd val).2.map (List.dropWhile isSpace)

/-- The loop of `contain`, at most `fuel + 1` rounds of it. -/
def containLoop (field : Bytes) : ℕ → Bytes → Bool
  | 0, val => is val field
  | fuel + 1, val =>
    if is val field then true
    else
      match next val with
      | none => false
      | some val => containLoop field fuel val

/-- `contain`. -/
def contain (val field : Bytes) : Bool := containLoop field val.length (init val)

/-- The loop `do { body } while (field.next())`, at most `fuel + 1` rounds of it. -/
def loop {σ : Type} (body : σ → Bytes → σ) : ℕ → σ → Bytes → σ
  | 0, s, val => body s val
  | fuel + 1, s, val =>
    match next val with
    | none => body s val
    | some val' => loop body fuel (body s val) val'

/-- A loop over the value of a header. -/
def parse {σ : Type} (body : σ → Bytes → σ) (s : σ) (val : Bytes) : σ :=
  loop body val.length s (init val)

/-! ## Weights -/

/-- The loop of `kgl_atofp`. -/
def atofpLoop : Bytes → Bool → ℕ → ℕ → ℕ
  | [], _, point, value => value * 10 ^ point % 2 ^ 64
  | c :: line, dot, point, value =>
    if point = 0 then 0
    else if c = 46 then if dot then value else atofpLoop line true point value
    else if !isDigit c then value
    else
      atofpLoop line dot (if dot then point - 1 else point)
        ((value * 10 + (c.toNat - 48)) % 2 ^ 64)

/-- `kgl_atofp`, as an unsigned number. -/
def kglAtofp (line : Bytes) (point : ℕ) : ℕ :=
  if line = [] then 0 else atofpLoop line false point 0

/-- `get_double_param` over the bytes of a field, at most `fuel` rounds of its loop. -/
def getDoubleParam (param : Bytes) (point : ℕ) : ℕ → Bytes → Option ℕ
  | 0, _ => none
  | fuel + 1, hot =>
    if hot = [] then none
    else
      let r := (memchr 59 hot).getD (hot, [])
      match memchr 61 (r.1.dropWhile isSpace) with
      | none => getDoubleParam param point fuel r.2
      | some (name, value) =>
        if memCaseSame name param then some (kglAtofp (value.dropWhile isSpace) point)
        else getDoubleParam param point fuel r.2

end KHttpFieldValue

/-! ## The headers -/

/-- The bits of `raw_url.accept_encoding`. -/
structure AcceptEncoding where
  gzip : Bool
  deflate : Bool
  compress : Bool
  br : Bool
  zstd : Bool
  unknow : Bool
  deriving DecidableEq, Repr

open KHttpFieldValue in
/-- A round of the loop over `Accept-Encoding`. -/
def acceptEncodingField (s : AcceptEncoding) (val : Bytes) : AcceptEncoding :=
  let field := (getFieldEnd val).1
  if getDoubleParam (kglString "q") 3 field.length field = some 0 then s
  else if is val (kglString "gzip") then { s with gzip := true }
  else if is val (kglString "deflate") then { s with deflate := true }
  else if is val (kglString "compress") then { s with compress := true }
  else if is val (kglString "br") then { s with br := true }
  else if is val (kglString "zstd") then { s with zstd := true }
  else if !is val (kglString "identity") then { s with unknow := true }
  else s

/-- The flags `RQ_HAS_KEEP_CONNECTION` and `RQ_HAS_CONNECTION_UPGRADE`. -/
structure ConnectionFlags where
  keepConnection : Bool
  connectionUpgrade : Bool
  deriving DecidableEq, Repr

open KHttpFieldValue in
/-- A round of the loop over `Connection`. -/
def connectionField (s : ConnectionFlags) (val : Bytes) : ConnectionFlags :=
  if is val (kglString "keep-alive") then { s with keepConnection := true }
  else if is val (kglString "upgrade") then { s with connectionUpgrade := true }
  else if is val (kglString "close") then { s with keepConnection := false }
  else s

/-- The flags `RQ_HAS_NO_CACHE` and `RQ_HAS_ONLY_IF_CACHED`. -/
structure CacheControlFlags where
  noCache : Bool
  onlyIfCached : Bool
  deriving DecidableEq, Repr

open KHttpFieldValue in
/-- A round of the loop over `Cache-Control`. -/
def cacheControlField (s : CacheControlFlags) (val : Bytes) : CacheControlFlags :=
  if is val (kglString "no-store") || is val (kglString "no-cache") then { s with noCache := true }
  else if is val (kglString "only-if-cached") then { s with onlyIfCached := true }
  else s

/-- The loop over `Accept-Encoding`. -/
def parseAcceptEncoding (s : AcceptEncoding) (val : Bytes) : AcceptEncoding :=
  KHttpFieldValue.parse acceptEncodingField s val

/-- The loop over `Connection`. -/
def parseConnection (s : ConnectionFlags) (val : Bytes) : ConnectionFlags :=
  KHttpFieldValue.parse connectionField s val

/-- The loop over `Cache-Control`. -/
def parseCacheControl (s : CacheControlFlags) (val : Bytes) : CacheControlFlags :=
  KHttpFieldValue.parse cacheControlField s val

end Khttpd
