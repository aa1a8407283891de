import Khttpd.Model.Text

/-!
# Writing to an HTTP/3 stream

The two overloads of `KHttp3Sink::write_all`. The QUIC library is the list of what the next calls
of `internal_write` meet: nothing where `lsquic_stream_wantwrite` fails, else what
`lsquic_stream_writev` returns, which takes at most what it is offered. A call fails where the list
ends. An iovec is the bytes it points to.
-/

set_option autoImplicit false

namespace Khttpd

/-- `KGL_RQ_WRITE_BUF_COUNT`. -/
def rqWriteBufCount : ℕ := 64

/-- `KHttp3Sink`: whether `st` is set, `content_left`, the library, and the bytes that the stream
took. -/
structure KHttp3Sink where
  st : Bool
  contentLeft : ℤ
  results : List (Option ℤ)
  sent : Bytes
  deriving DecidableEq, Repr

namespace KHttp3Sink

/-- `internal_write`; the statistics of `add_down_flow` are left out. -/
def internalWrite (s : KHttp3Sink) (buf : List Bytes) : KHttp3Sink × ℤ :=
  if !s.st then (s, -1)
  else
    match s.results with
    | [] => (s, -1)
    | none :: results => ({ s with results := results }, -1)
    | some result :: results =>
      let got := min result buf.flatten.length
      ({ s with
          contentLeft := if 0 < s.contentLeft then s.contentLeft - got else s.contentLeft
          results := results
          sent := s.sent ++ buf.flatten.take got.toNat }, got)

/-- The loop that prepares `iovec_buf`, with room for `slots` more: the iovecs, `length` and `buf`
behind them. `none` is a read through a null `buf`. -/
def prepareLoop : ℕ → List Bytes → ℤ → Option (List Bytes × ℤ × List Bytes)
  | 0, buf, length => some ([], length, buf)
  | slots + 1, buf, length =>
    if 0 < length then
      match buf with
      | [] => none
      | data :: next =>
        let iovLen := min length data.length
        (prepareLoop slots next (length - iovLen)).map fun r => (data.take iovLen.toNat :: r.1, r.2)
    else some ([], length, buf)

/-- The loop that sees what is left of the iovecs after `got` bytes. -/
def hotLoop : List Bytes → ℕ → List Bytes
  | [], _ => []
  | iov :: hotBuf, got =>
    if got = 0 then iov :: hotBuf
    else if iov.length > got then iov.drop got :: hotBuf
    else hotLoop hotBuf (got - iov.length)

/-- The loop that writes the iovecs, with at most `fuel` calls: the sink, `length`, and whether
`write_all` returns it. -/
def writeLoop : ℕ → List Bytes → KHttp3Sink → ℤ → KHttp3Sink × ℤ × Bool
  | 0, _, s, length => (s, length, true)
  | _ + 1, [], s, length => (s, length, false)
  | fuel + 1, iov :: hotBuf, s, length =>
    let r := s.internalWrite (iov :: hotBuf)
    if r.2 ≤ 0 then (r.1, length, true)
    else writeLoop fuel (hotLoop (iov :: hotBuf) r.2.toNat) r.1 (length - r.2)

/-- The outer loop of `write_all`, with at most `fuel` rounds. -/
def writeAllLoop : ℕ → List Bytes → KHttp3Sink → ℤ → Option (KHttp3Sink × ℤ)
  | 0, _, s, length => some (s, length)
  | fuel + 1, buf, s, length =>
    if 0 < length then
      (prepareLoop rqWriteBufCount buf length).bind fun (iovecBuf, length, buf) =>
        match writeLoop (iovecBuf.flatten.length + 1) iovecBuf s length with
        | (s, length, true) => some (s, length)
        | (s, length, false) => writeAllLoop fuel buf s length
    else some (s, 0)

/-- `write_all(const kbuf *, int)`: a round takes at least one byte off `length`. -/
def writeAll (s : KHttp3Sink) (buf : List Bytes) (length : ℤ) : Option (KHttp3Sink × ℤ) :=
  writeAllLoop (length.toNat + 1) buf s length

/-- The loop of `write_all(const char *, int)`, with at most `fuel` calls. -/
def writeStrLoop : ℕ → Bytes → KHttp3Sink → ℤ → KHttp3Sink × ℤ
  | 0, _, s, length => (s, length)
  | fuel + 1, str, s, length =>
    if 0 < length then
      let r := s.internalWrite [str.take length.toNat]
      if r.2 ≤ 0 then (r.1, length)
      else writeStrLoop fuel (str.drop r.2.toNat) r.1 (length - r.2)
    else (s, length)

/-- `write_all(const char *, int)`. -/
def writeStr (s : KHttp3Sink) (str : Bytes) (length : ℤ) : KHttp3Sink × ℤ :=
  writeStrLoop (length.toNat + 1) str s length

end KHttp3Sink

end Khttpd
