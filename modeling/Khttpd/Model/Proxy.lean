import Khttpd.Model.Frame

/-!
# The PROXY protocol header

`KRequestProxy` reads a header of version 2 in front of a connection: sixteen fixed bytes, and as
many bytes behind them as they say. `build_proxy_header` makes one. `ksocket_get_ipaddr` reads the
text of an address outside the repository and is a parameter.
-/

set_option autoImplicit false

namespace Khttpd

/-- `PF_INET` and `PF_INET6`. -/
inductive SockFamily
  | inet
  | inet6
  deriving DecidableEq, Repr

/-- The bytes of an address. -/
def SockFamily.size : SockFamily → ℕ
  | .inet => 4
  | .inet6 => 16

/-- The number of a family in the header. -/
def SockFamily.fam : SockFamily → Byte
  | .inet => 1
  | .inet6 => 2

/-- `kgl_proxy_v2sig`. -/
def kglProxyV2sig : Bytes :=
  [0x0D, 0x0A, 0x0D, 0x0A, 0x00, 0x0D, 0x0A, 0x51, 0x55, 0x49, 0x54, 0x0A]

/-- `sizeof(kgl_proxy_hdr_v2)`. -/
def proxyHdrSize : ℕ := 16

/-- `sizeof(kgl_proxy_ipv4_addr)` and `sizeof(kgl_proxy_ipv6_addr)`. -/
def proxyAddrSize (family : SockFamily) : ℕ := 2 * family.size + 4

/-- `kgl_proxy_hdr_v2`; `len` in the order of the host. -/
structure KglProxyHdrV2 where
  sig : Bytes
  verCmd : Byte
  fam : Byte
  len : ℕ
  deriving DecidableEq, Repr

/-- The fields of the fixed bytes. -/
def KglProxyHdrV2.ofBytes (b : Bytes) : KglProxyHdrV2 where
  sig := b.take 12
  verCmd := b.getD 12 0
  fam := b.getD 13 0
  len := parseUint16 (b.drop 14)

/-- `sockaddr_i`, as far as it is assigned; the port has the order of the network. -/
structure SockaddrI where
  family : SockFamily
  addr : Bytes
  port : Bytes
  deriving DecidableEq, Repr

/-- `kgl_proxy_protocol`. -/
structure KglProxyProtocol where
  src : SockaddrI
  dst : SockaddrI
  deriving DecidableEq, Repr

/-- `state_handle`. -/
inductive ProxyState
  | header
  | body
  deriving DecidableEq, Repr

/-- `KRequestProxy`: `got` are the bytes in front of `iovec_buf[1].iov_base` in `hdr` or in `body`,
and `left` is `iovec_buf[1].iov_len`. -/
structure KRequestProxy where
  stateHandle : ProxyState
  hdr : KglProxyHdrV2
  got : Bytes
  left : ℕ
  deriving DecidableEq, Repr

/-- How a call ends: with another `selectable_read`, with the callback, or in `destroy`, which calls
back with `-1`. -/
inductive ProxyResult
  | read (r : KRequestProxy)
  | done (proxy : KglProxyProtocol)
  | destroy
  deriving DecidableEq, Repr

/-- The copies of `state_body` from an address of a family. -/
def proxyAddresses (family : SockFamily) (body : Bytes) : KglProxyProtocol where
  src := ⟨family, body.take family.size, (body.drop (2 * family.size)).take 2⟩
  dst := ⟨family, (body.drop family.size).take family.size,
    (body.drop (2 * family.size + 2)).take 2⟩

namespace KRequestProxy

/-- `handl_proxy_request`. -/
def init : KRequestProxy := ⟨.header, ⟨[], 0, 0, 0⟩, [], proxyHdrSize⟩

/-- `state_body`. -/
def stateBody (r : KRequestProxy) : ProxyResult :=
  if r.hdr.fam = 1 then
    if r.hdr.len < proxyAddrSize .inet then .destroy else .done (proxyAddresses .inet r.got)
  else if r.hdr.fam = 2 then
    if r.hdr.len < proxyAddrSize .inet6 then .destroy else .done (proxyAddresses .inet6 r.got)
  else .destroy

/-- `state_header`. -/
def stateHeader (r : KRequestProxy) : ProxyResult :=
  let hdr := KglProxyHdrV2.ofBytes r.got
  if hdr.sig ≠ kglProxyV2sig then .destroy
  else if hdr.len > 4096 ∨ hdr.len < proxyAddrSize .inet then .destroy
  else if hdr.verCmd.toNat / 16 ≠ 2 then .destroy
  else if hdr.verCmd.toNat % 16 ≠ 1 then .destroy
  else .read ⟨.body, hdr, [], hdr.len⟩

/-- `state`, after a read of `bytes`, which are none at the end of the stream. -/
def state (r : KRequestProxy) (bytes : Bytes) : ProxyResult :=
  if bytes = [] then .destroy
  else
    let r := { r with got := r.got ++ bytes, left := r.left - bytes.length }
    if r.left > 0 then .read r
    else
      match r.stateHandle with
      | .header => r.stateHeader
      | .body => r.stateBody

end KRequestProxy

/-! ## Reading from a socket -/

/-- A reader, and the bytes that it did not read. -/
structure ProxyConn where
  result : ProxyResult
  wire : Bytes
  deriving DecidableEq, Repr

namespace ProxyConn

/-- A read of at most `size` bytes, and of no more than there is room for. -/
def step (c : ProxyConn) (size : ℕ) : ProxyConn :=
  match c.result with
  | .read r => ⟨r.state (c.wire.take (min size r.left)), c.wire.drop (min size r.left)⟩
  | _ => c

/-- The reads from a socket that brings `wire`. -/
def run (wire : Bytes) (sizes : List ℕ) : ProxyConn := sizes.foldl step ⟨.read .init, wire⟩

end ProxyConn

/-! ## Making a header -/

/-- `ip_addr`: its family, or `none` for one that is neither, and its sixteen bytes. -/
structure IpAddr where
  sinFamily : Option SockFamily
  addr8 : Bytes
  length_addr8 : addr8.length = 16

/-- `build_proxy_header`: all is zero but the signature, the version and the command, the family,
the length and the address of the source. -/
def buildProxyHeader (ksocketGetIpaddr : Bytes → Option IpAddr) (ip : Bytes) : Option Bytes :=
  match ksocketGetIpaddr ip with
  | none => none
  | some ia =>
    match ia.sinFamily with
    | none => none
    | some family =>
      let len := proxyAddrSize family
      some (kglProxyV2sig ++ [UInt8.ofNat (2 <<< 4 ||| 1), family.fam] ++ htons (len % 2 ^ 16) ++
        ia.addr8.take family.size ++ List.replicate (len - family.size) 0)

end Khttpd
