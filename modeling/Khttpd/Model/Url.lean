import Khttpd.Model.HeaderMemory

/-!
# URLs

`parse_url` and `parse_url_host`, what `KUrl` prints, and `url_encode` and `url_decode`.
-/

set_option autoImplicit false

namespace Khttpd

/-- `KGL_URL_SSL`: the listen port is ssl. -/
def kglUrlSsl : UInt16 := 1

/-- `KGL_URL_IPV6`. -/
def kglUrlIpv6 : UInt16 := 2

/-- `KGL_URL_ENCODE`. -/
def kglUrlEncode : UInt16 := 32

/-- `KGL_URL_ORIG_SSL`: the request is ssl. -/
def kglUrlOrigSsl : UInt16 := 64

/-- `KGL_URL_HAS_PORT`. -/
def kglUrlHasPort : UInt16 := 128

/-- `KBIT_TEST`. -/
def kbitTest (flags bit : UInt16) : Bool := flags &&& bit != 0

/-- `kgl_url`. A string is what stands before its terminator. -/
structure KglUrl where
  host : Option Bytes
  path : Option Bytes
  param : Option Bytes
  port : UInt16
  flags : UInt16
  deriving DecidableEq

namespace KglUrl

/-- `KUrl::KUrl`. -/
def init : KglUrl := ⟨none, none, none, 0, 0⟩

/-- `KBIT_SET(url->flags, bit)`. -/
def setFlag (url : KglUrl) (bit : UInt16) : KglUrl := { url with flags := url.flags ||| bit }

/-- `KBIT_CLR(url->flags, bit)`. -/
def clearFlag (url : KglUrl) (bit : UInt16) : KglUrl := { url with flags := url.flags &&& ~~~bit }

end KglUrl

/-! ## Parsing -/

/-- `kgl_atoi`: the loop of `kgl_atol` on an `int`. -/
def kglAtoi (line : Bytes) : Option ℕ := if kglAtol line < 2 ^ 31 then some (kglAtol line) else none

/-- `kgl_memstr`: what stands before the first occurrence of `needle`, and what follows it. -/
def kglMemstr (needle : Bytes) : Bytes → Option (Bytes × Bytes)
  | [] => if needle.isEmpty then some ([], []) else none
  | c :: haystack =>
    if needle.isPrefixOf (c :: haystack) then some ([], (c :: haystack).drop needle.length)
    else (kglMemstr needle haystack).map fun r => (c :: r.1, r.2)

/-- What the parsers of a URL return and leave in the URL. -/
structure ParsedUrl where
  ok : Bool
  url : KglUrl
  deriving DecidableEq

/-- The port behind a host: `port` is what follows the `:`, when there is one. The cast to
`uint16_t` keeps the low bits. -/
def setPort (url : KglUrl) : Option Bytes → Option KglUrl
  | some port => do
    let value ← kglAtoi port
    return { url with port := UInt16.ofNat value }
  | none => some url

/-- The end of `parse_url_host`. -/
def finishHost (strndup : Bytes → Bytes) (url : KglUrl) (host : Bytes) (port : Option Bytes) :
    KglUrl :=
  let url := { url with host := some (strndup host) }
  match port with
  | none => { url with port := if kbitTest url.flags kglUrlOrigSsl then 443 else 80 }
  | some _ => url.setFlag kglUrlHasPort

/-- `parse_url_host`; `none` where the port overflows an `int`. `strndup` is what stands before the
terminator in the result of `kgl_strndup`. -/
def parseUrlHost (strndup : Bytes → Bytes) (url : KglUrl) (val : Bytes) : Option ParsedUrl :=
  match val with
  | 91 :: val =>
    let url := url.setFlag kglUrlIpv6
    match memchr 93 val with
    | none => some ⟨false, url⟩
    | some (host, back) => do
      let port := (memchr 58 (93 :: back)).map Prod.snd
      let url ← setPort url port
      return ⟨true, finishHost strndup url host port⟩
  | val =>
    match memchr 58 val with
    | none => some ⟨true, finishHost strndup url val none⟩
    | some (host, port) => do
      let url ← setPort url (some port)
      return ⟨true, finishHost strndup url host (some port)⟩

/-- `parse_url` from `only_path` on. -/
def onlyPath (strndup : Bytes → Bytes) (url : KglUrl) (path : Bytes) : KglUrl :=
  match memchr 63 path with
  | some (path, sp) =>
    let param := strndup sp
    let url := if param ≠ [] then { url with param := some param } else url
    { url with path := some (strndup path) }
  | none => { url with path := some (strndup path) }

/-- What `parse_url` makes of a scheme. -/
def setScheme (url : KglUrl) (scheme : Bytes) : KglUrl :=
  if memCaseSame scheme (kglString "http") then url.clearFlag kglUrlOrigSsl
  else if memCaseSame scheme (kglString "https") then url.setFlag kglUrlOrigSsl
  else url

/-- `parse_url`. -/
def parseUrl (strndup : Bytes → Bytes) (src : Bytes) (url : KglUrl) : Option ParsedUrl :=
  match src with
  | [] => some ⟨false, url⟩
  | c :: _ =>
    if c = 47 ∨ c = 42 then some ⟨true, onlyPath strndup url src⟩
    else
      match kglMemstr (kglString "://") src with
      | none => some ⟨false, url⟩
      | some (scheme, rest) =>
        let url := setScheme url scheme
        match memchr 47 rest with
        | none => some ⟨false, url⟩
        | some (authority, path) => do
          let parsed ← parseUrlHost strndup url authority
          if parsed.ok then return ⟨true, onlyPath strndup parsed.url (47 :: path)⟩
          else return parsed

/-! ## Encoding -/

/-- `hexchars`. -/
def hexchars (digit : Byte) : Byte := (kglString "0123456789ABCDEF").getD digit.toNat 0

/-- The bytes that `url_encode` escapes. -/
def urlEscapes (c : Byte) : Bool :=
  c < 48 && c != 45 && c != 46 || c < 65 && c > 57 || c > 90 && c < 97 && c != 95 || c > 122 ||
    c == 92

/-- What `url_encode` writes for a byte. -/
def urlEncodeByte (c : Byte) : Bytes :=
  if c = 47 then [c]
  else if urlEscapes c then [37, hexchars (c >>> 4), hexchars (c &&& 15)]
  else [c]

/-- `url_encode`. -/
def urlEncode (s : Bytes) : Bytes := s.flatMap urlEncodeByte

/-- `url_value_encode`. -/
def urlValueEncode (s : Bytes) : Bytes :=
  s.flatMap fun c =>
    if c = 47 then [c]
    else if c ≥ 128 then [37, hexchars (c >>> 4), hexchars (c &&& 15)]
    else [c]

/-! ## Printing -/

/-- `operator<<(int)` on a number that is not negative. -/
def decimal (value : ℕ) : Bytes := (Nat.toDigits 10 value).map fun c => UInt8.ofNat c.toNat

/-- `build_url_host_port`, of a URL with this host. -/
def buildUrlHostPort (url : KglUrl) (host : Bytes) : Bytes :=
  (if kbitTest url.flags kglUrlIpv6 then 91 :: host ++ [93] else host) ++
    if kbitTest url.flags kglUrlHasPort then 58 :: decimal url.port.toNat else []

namespace KglUrl

/-- `KUrl::GetPath`, of a URL with this path. -/
def getPath (url : KglUrl) (path : Bytes) (encode : Bool) : Bytes :=
  (if encode then urlEncode path else path) ++
    match url.param with
    | none | some [] => []
    | some param => 63 :: if encode then urlValueEncode param else param

/-- `KUrl::GetSchema`. -/
def getSchema (url : KglUrl) : Option Bytes :=
  if url.host = none ∨ url.path = none then none
  else some (kglString (if kbitTest url.flags kglUrlSsl then "https://" else "http://"))

/-- `KUrl::GetUrl`: what it writes, or `none` where it returns `false`. -/
def getUrl (url : KglUrl) (encode : Bool) : Option Bytes := do
  let schema ← url.getSchema
  let host ← url.host
  let path ← url.path
  return schema ++ (buildUrlHostPort url host ++ url.getPath path encode)

end KglUrl

/-! ## Decoding -/

open MemoryProgram InPlace

/-- `isxdigit`. -/
def isXDigit (c : Byte) : Bool := 48 ≤ c && c ≤ 57 || 65 ≤ c && c ≤ 70 || 97 ≤ c && c ≤ 102

/-- The value of one digit in `my_htoi`. -/
def htoiDigit (c : Byte) : ℤ :=
  let c := toLower c
  if 48 ≤ c && c ≤ 57 then (c.toNat : ℤ) - 48 else (c.toNat : ℤ) - 97 + 10

/-- `my_htoi`, cast to a `char`. -/
def myHtoi (high low : Byte) : Byte := UInt8.ofInt (htoiDigit high * 16 + htoiDigit low)

/-- `strlen`, in a block of `size` bytes. -/
def strlen : ℕ → ℕ → CProg ℕ
  | 0, _ => pure 0
  | size + 1, str => do
    let c ← load str
    if c = 0 then pure 0
    else do
      let len ← strlen size (str + 1)
      pure (len + 1)

/-- What the loop of `url_decode` leaves in its variables. -/
structure Decoding where
  dest : ℕ
  memAvailable : Bool
  url : Option KglUrl

/-- The test for an escape at `data`, with `len` bytes behind it. -/
def isEscape (data len : ℕ) : CProg Bool := do
  let c ← load data
  if c = 37 ∧ 2 ≤ len then do
    let high ← load (data + 1)
    if isXDigit high then do
      let low ← load (data + 2)
      pure (isXDigit low)
    else pure false
  else pure false

/-- The loop of `url_decode` over `len` bytes. -/
def urlDecodeLoop (space2plus : Bool) : ℕ → ℕ → Decoding → CProg Decoding
  | 0, _, d => pure d
  | len + 1, data, d => do
    let c ← load data
    if space2plus ∧ c = 43 then do
      store d.dest 32
      urlDecodeLoop space2plus len (data + 1)
        { d with dest := d.dest + 1, url := d.url.map fun url => url.setFlag kglUrlEncode }
    else do
      let escape ← isEscape data len
      if escape then do
        let high ← load (data + 1)
        let low ← load (data + 2)
        store d.dest (myHtoi high low)
        urlDecodeLoop space2plus (len - 2) (data + 3)
          ⟨d.dest + 1, true, d.url.map fun url => url.setFlag kglUrlEncode⟩
      else do
        let c ← load data
        store d.dest c
        urlDecodeLoop space2plus len (data + 1) { d with dest := d.dest + 1 }
  termination_by len => len
  decreasing_by all_goals omega

/-- What `url_decode` returns, and the URL it leaves. -/
structure DecodedUrl where
  length : ℕ
  url : Option KglUrl

/-- The bytes that `url_decode` reads: `len`, or those of the string when `len` is zero. -/
def decodeLength (size str len : ℕ) : CProg ℕ := if len = 0 then strlen size str else pure len

/-- `url_decode`. -/
def urlDecode (size str len : ℕ) (url : Option KglUrl) (space2plus : Bool) : CProg DecodedUrl := do
  let len ← decodeLength size str len
  let d ← urlDecodeLoop space2plus len str ⟨str, false, url⟩
  if d.memAvailable then do
    store d.dest 0
    pure ⟨d.dest - str, d.url⟩
  else pure ⟨d.dest - str, d.url⟩

end Khttpd
