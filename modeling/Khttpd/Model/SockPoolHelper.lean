import Khttpd.Model.FieldValue
import Khttpd.Model.SocketPool

/-!
# The configuration of an upstream

`KSockPoolHelper::setHostPort` with TLS, HTTP/2 and Unix sockets built in. A `KString` is null or a
string; what `kstring_from` makes of a pointer is a parameter. The TLS context that the call builds
is left out.
-/

set_option autoImplicit false

namespace Khttpd

/-- The fields of `KSockPoolHelper` that `setHostPort` sets; `alpn` is `KGL_ALPN_HTTP2`, or
`KGL_ALPN_HTTP1`. -/
structure HelperConfig where
  host : Option Bytes
  port : ℕ
  ssl : Option Bytes
  h2 : Bool
  alpn : Bool
  noSni : Bool
  isUnix : Bool
  deriving DecidableEq, Repr

namespace HelperConfig

/-- The constructor; it leaves `port` as it is in the memory. -/
def init (port : UInt16) : HelperConfig := ⟨none, port.toNat, none, false, false, false, false⟩

/-- `c_str()`. -/
def cStr (s : Option Bytes) : Bytes := cstr (s.getD [])

/-- Whether a string at `s` begins with `ch`. -/
def startsWith (ch : Byte) (s : Bytes) : Bool := s.head? == some ch

/-- `ssl_buf` once its first `/` is replaced. -/
def sslBuf (s : Bytes) : Bytes := s.takeWhile (· ≠ 47)

/-- The host without `unix:`. -/
def isUnixHost (host : Option Bytes) : Bool := strncasecmpSame 5 (cStr host) (kglString "unix:")

@[inherit_doc isUnixHost]
def stripUnix (host : Option Bytes) : Option Bytes :=
  if isUnixHost host then host.map fun host => cstr (host.drop 5) else host

/-- `setHostPort(host, port, s)`: the configuration, and `destChanged`. -/
def setHostPort (kstringFrom : Option Bytes → Option Bytes) (c : HelperConfig)
    (host : Option Bytes) (port : ℤ) (s : Option Bytes) : HelperConfig × Bool :=
  let h2 := s.any (startsWith 104)
  let s := if h2 then none else s
  let s := s.filter fun s => startsWith 115 s || startsWith 83 s
  let destChanged := decide (c.host ≠ host ∨ (c.port : ℤ) ≠ port ∨ c.ssl ≠ kstringFrom s)
  let noSni := if s.any fun s => (sslBuf s).contains 110 then true else c.noSni
  let isUnix := if isUnixHost host then true else c.isUnix
  let host := stripUnix host
  let isUnix := if startsWith 47 (host.getD []) then true else isUnix
  (⟨host, (port % 2 ^ 16).toNat, s, h2, s.any fun s => (sslBuf s).contains 112, noSni, isUnix⟩,
    destChanged)

/-- `setHostPort(host, port)` with the port as a string, and what follows it. -/
def setHostPortString (kstringFrom : Option Bytes → Option Bytes) (c : HelperConfig)
    (call : Option Bytes × Bytes) : HelperConfig × Bool :=
  c.setHostPort kstringFrom call.1 (atoi call.2) (some (call.2.dropWhile isDigit))

end HelperConfig

variable {ι : Type}

/-- `clean`. -/
def KPoolableSocketContainer.clean (now : ℤ) (p : KPoolableSocketContainer ι) :
    KPoolableSocketContainer ι :=
  match p.imp with
  | none => p
  | some imp => { p with imp := some (imp.refresh now true).1 }

/-- The configuration and the pool of a `KSockPoolHelper`. -/
structure KSockPoolHelper (ι : Type) where
  config : HelperConfig
  container : KPoolableSocketContainer ι

namespace KSockPoolHelper

/-- `setHostPort(host, port)`. -/
def setHostPort (kstringFrom : Option Bytes → Option Bytes) (now : ℤ) (helper : KSockPoolHelper ι)
    (call : Option Bytes × Bytes) : KSockPoolHelper ι :=
  let r := helper.config.setHostPortString kstringFrom call
  ⟨r.1, if r.2 then helper.container.clean now else helper.container⟩

/-- The upstreams in the pool. -/
def pooled (helper : KSockPoolHelper ι) : List (KUpstream ι) := helper.container.getImp.head

end KSockPoolHelper

end Khttpd
