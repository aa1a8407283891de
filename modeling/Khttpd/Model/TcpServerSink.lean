import Khttpd.Model.Http3Sink
import Khttpd.Model.Streams

/-!
# Writing to a connection

`kangle::write_buf` of `KTcpServerSink.h`: a chain of buffers and a suffix go to the socket in
batches of vectors, of which the last one has the suffix. `kfiber_net_writev_full` is a parameter.
-/

set_option autoImplicit false

namespace Khttpd

/-- What a call of `kfiber_net_writev_full` does: the bytes that go out, the count that it returns
and the number of vectors that it leaves in `bc`. -/
structure WritevResult where
  written : Bytes
  got : ℕ
  bc : ℕ
  deriving DecidableEq, Repr

/-- `kfiber_net_writev_full`, which may do something else at each call. -/
abbrev Writev : Type := ℕ → List Bytes → WritevResult

/-- The `while` loop of `write_buf`, whose `for` loop is that of `KHttp3Sink`: what it sends, and
`length` where it ends. A round uses up a buffer, so as many rounds as there are buffers are enough;
`call` counts them. -/
def writeBufLoop (writev : Writev) (suffix : Option Bytes) :
    ℕ → ℕ → List Bytes → ℤ → ℤ → Option (Bytes × ℤ)
  | 0, _, _, _, length => some ([], length)
  | fuel + 1, call, buf, bufLength, length =>
    if 0 < bufLength then
      (KHttp3Sink.prepareLoop (rqWriteBufCount - 1) buf bufLength).bind
        fun (iovecBuf, bufLength, buf) =>
        let r := writev call (if bufLength = 0 then iovecBuf ++ suffix.toList else iovecBuf)
        let length := toInt32 (length - toInt32 r.got)
        if 0 < r.bc then some (r.written, length)
        else (writeBufLoop writev suffix fuel (call + 1) buf bufLength length).map fun next =>
          (r.written ++ next.1, next.2)
    else some ([], length)

/-- `kangle::write_buf`: the bytes sent and the value returned. `none` is a read through a null
`buf`. -/
def writeBuf (writev : Writev) (buf : List Bytes) (length : ℤ) (suffix : Option Bytes) :
    Option (Bytes × ℤ) :=
  let unsent := suffix.elim length fun data => toInt32 (length + toInt32 data.length)
  writeBufLoop writev suffix buf.length 0 buf length unsent

end Khttpd
