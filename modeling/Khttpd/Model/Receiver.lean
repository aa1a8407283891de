import Khttpd.Lib.Resumable
import Khttpd.Model.HuffDecode
import Khttpd.Model.Streams
import Khttpd.Model.Text

/-!
# The frame parser

The handlers `KHttp2::state_*`. A handler gets the bytes from `pos` to `end` and ends in one of
the ways of the source: it returns a new `pos`, it returns the result of another handler, it
returns `end` through `state_save`, or it returns NULL after `close`. No handler reads
`state.handler` or `state.buffer`; what it assigns to them is part of its result.
-/

set_option autoImplicit false

namespace Khttpd

/-- How a handler ends: `.pos h rest` assigns `state.handler` and returns `pos`, `.jump` is a
tail call, `.save` is `state_save`, `.null` is the NULL after `close`. -/
abbrev Ret : Type := Resumable.Outcome Handler Byte

/-- What `parse_int` returns: a number and the octets it took, `KGL_AGAIN`, `KGL_DECLINED` or
`KGL_ERROR`. -/
inductive IntResult
  | value (n used : ℕ)
  | again
  | declined
  | error
  deriving DecidableEq, Repr

/-- The loop of `parse_int` over the octets after a full prefix: the number and how many octets
were read when one ends it. -/
def parseIntLoop : Bytes → ℕ → ℕ → ℕ → Option (ℕ × ℕ)
  | [], _, _, _ => none
  | octet :: p, shift, value, used =>
    let value := value + octet.toNat % 128 * 2 ^ shift
    if octet < 128 then some (value, used + 1) else parseIntLoop p (shift + 7) value (used + 1)

/-- `parse_int` with `state.length` octets left in the block; `pfx` is the prefix mask. -/
def parseInt (length : ℕ) (p : Bytes) (pfx : ℕ) : IntResult :=
  match p with
  | [] => .again
  | first :: rest =>
    let value := first.toNat % (pfx + 1)
    if value ≠ pfx then
      if length = 0 then .error else .value value 1
    else
      match parseIntLoop (rest.take (intOctets - 1)) 0 value 1 with
      | some (value, used) => if used > length then .error else .value value used
      | none =>
        if min p.length intOctets ≥ length then .error
        else if p.length ≥ intOctets then .declined
        else .again

/-- The parts of the connection preface. -/
def prefaceStart : Bytes := kglString "PRI * HTTP/2.0\r\n"
@[inherit_doc prefaceStart] def prefaceEnd : Bytes := kglString "\r\nSM\r\n\r\n"

/-- The limit on `state.header_length`. -/
def maxHeaderLength : ℕ := 1048576

/-- The limit on the length of a string that `state_field_len` still copies. -/
def maxFieldSize : ℕ := 4096

namespace KHttp2

/-- `return this->close(true, status)`. -/
def fail (s : KHttp2) (status : ℕ) : KHttp2 × Ret := (s.close true status, .null)

/-- `state_save`. -/
def stateSave (s : KHttp2) (p : Bytes) (h : Handler) : KHttp2 × Ret :=
  if p.length > stateBufferSize then s.fail internalError else (s, .save h p)

/-! ## Frame level -/

/-- `state_preface`. -/
def statePreface (s : KHttp2) (p : Bytes) : KHttp2 × Ret :=
  -- `sizeof` counts the NUL, so one byte more than the preface is awaited
  if p.length < prefaceStart.length + 1 then s.stateSave p .statePreface
  else if p.take prefaceStart.length ≠ prefaceStart then s.fail protocolError
  else (s, .jump .statePrefaceEnd (p.drop prefaceStart.length))

/-- `state_preface_end`. -/
def statePrefaceEnd (s : KHttp2) (p : Bytes) : KHttp2 × Ret :=
  if p.length < prefaceEnd.length + 1 then s.stateSave p .statePrefaceEnd
  else if p.take prefaceEnd.length ≠ prefaceEnd then s.fail protocolError
  else (s, .jump .stateHead (p.drop prefaceEnd.length))

/-- `kgl_http_v2_frame_states[type]`, and `state_skip` beyond its end. -/
def frameState (type : ℕ) : Handler :=
  match type with
  | 0 => .stateData
  | 1 => .stateHeaders
  | 2 => .statePriority
  | 3 => .stateRstStream
  | 4 => .stateSettings
  | 5 => .statePushPromise
  | 6 => .statePing
  | 7 => .stateGoaway
  | 8 => .stateWindowUpdate
  | 9 => .stateContinuation
  | 10 => .stateAltsvc
  | _ => .stateSkip

/-- `state_head`. -/
def stateHead (s : KHttp2) (p : Bytes) : KHttp2 × Ret :=
  if p.length < frameHeaderSize then s.stateSave p .stateHead
  else
    let length := parseLength (parseUint32 p)
    let type := parseType (parseUint32 p)
    let flags := p.getD 4 0
    let sid := parseSid (p.drop 5)
    let s := s.setState fun st => { st with length := length, flags := flags, sid := sid }
    let s := s.log (.frameHead sid length type flags)
    let s := if type ≥ frameStates then s else s.checkStreamTimeout
    (s, .jump (frameState type) (p.drop frameHeaderSize))

/-- `state_skip`. -/
def stateSkip (s : KHttp2) (p : Bytes) : KHttp2 × Ret :=
  if p.length < s.state.length then
    (s.setState fun st => { st with length := st.length - p.length }).stateSave [] .stateSkip
  else (s, .jump .stateComplete (p.drop s.state.length))

/-- `state_skip_padded`. -/
def stateSkipPadded (s : KHttp2) (p : Bytes) : KHttp2 × Ret :=
  (s.setState fun st => { st with length := st.length + st.padding, padding := 0 },
    .jump .stateSkip p)

/-- `state_complete`; `pos` is never past `end` here. -/
def stateComplete (s : KHttp2) (p : Bytes) : KHttp2 × Ret :=
  (s.releaseStateStream, .pos .stateHead p)

/-- The end of a frame whose padding may still follow. -/
def endFrame (s : KHttp2) (p : Bytes) : KHttp2 × Ret :=
  if s.state.padding ≠ 0 then s.stateSkipPadded p else (s, .jump .stateComplete p)

/-! ## DATA -/

/-- The window test of `state_data` that a frame passes: the connection window is used, and
opened again when three quarters are gone. The second component is whether a WINDOW_UPDATE
was queued. -/
def useRecvWindow (s : KHttp2) : KHttp2 × Bool :=
  let s := { s with recvWindow := s.recvWindow - s.state.length }
  if s.recvWindow < connectionRecvWindow / 4 then
    let r := s.sendWindowUpdate none 0 (connectionRecvWindow - s.recvWindow)
    ({ r.1 with recvWindow := connectionRecvWindow }, r.2)
  else (s, false)

/-- `state_data` from the lookup of the stream on. -/
def dataStream (s : KHttp2) (sendWindowFlag : Bool) (p : Bytes) : KHttp2 × Ret :=
  match s.getNode s.state.sid with
  | none => (if sendWindowFlag then s.startWrite else s).stateSkipPadded p
  | some ⟨_, c⟩ =>
    if !(s.ctx c).parsedHeader then (s.terminateStream c protocolError).1.stateSkipPadded p
    else if s.state.length > (s.ctx c).recvWindow then
      (s.terminateStream c flowCtrlError).1.stateSkipPadded p
    else
      let s := s.modify c fun ctx => { ctx with recvWindow := ctx.recvWindow - s.state.length }
      if (s.ctx c).inClosed then
        let r := s.terminateStream c streamClosed
        (if !r.2 && sendWindowFlag then r.1.startWrite else r.1).stateSkipPadded p
      else
        let s := s.setState fun st => { st with stream := some c }
        (if sendWindowFlag then s.startWrite else s, .jump .stateReadData p)

/-- `state_data` after the padding length. -/
def dataFlow (s : KHttp2) (p : Bytes) : KHttp2 × Ret :=
  if s.state.length > s.recvWindow then s.fail flowCtrlError
  else
    let r := s.useRecvWindow
    r.1.dataStream r.2 p

/-- `state_data`. -/
def stateData (s : KHttp2) (p : Bytes) : KHttp2 × Ret :=
  if hasFlag s.state.flags paddedFlag then
    if s.state.length = 0 then s.fail sizeError
    else
      match p with
      | [] => s.stateSave [] .stateData
      | padding :: p =>
        let s := s.setState fun st =>
          { st with padding := padding.toNat, length := st.length - 1 }
        if s.state.padding > s.state.length then s.fail sizeError
        else (s.setState fun st => { st with length := st.length - st.padding }).dataFlow p
  else s.dataFlow p

/-- Resume the body reader of a stream with what `got` says after `FlushQueue`. -/
def wakeReader (s : KHttp2) (c : CtxId) (fin : Bool) : KHttp2 :=
  match (s.ctx c).readWait with
  | none => s
  | some e =>
    let s := (s.modify c fun ctx => { ctx with readWait := none }).flushQueue c
    if fin then s.onRead c (some e) 0
    else
      let r := s.copyReadBuffer c e.bufLen
      r.1.onRead c (some e) r.2

/-- `state_read_data`. The append takes a 16-bit size. -/
def stateReadData (s : KHttp2) (p : Bytes) : KHttp2 × Ret :=
  match s.state.stream with
  | none => s.stateSkipPadded p
  | some c =>
    let size := min p.length s.state.length
    let s := if size = 0 then s
      else
        let bytes := p.take (size % 2 ^ 16)
        let s := s.modify c fun ctx =>
          { ctx with readBuffer := some (ctx.readBuffer.getD [] ++ bytes) }
        ((s.logData c (p.take size)).wakeReader c false).setState fun st =>
          { st with length := st.length - size }
    let p := p.drop size
    if s.state.length ≠ 0 then s.stateSave p .stateReadData
    else
      let s := if hasFlag s.state.flags endStreamFlag then
          ((s.modify c fun ctx => { ctx with inClosed := true }).log (.endStream c)).wakeReader c
            true
        else s
      s.endFrame p

/-! ## Header blocks -/

/-- `handle_continuation`: behind the `state.length` bytes of the block that are left, drop
the padding and take a CONTINUATION header out, then go on with `handler`. -/
def handleContinuation (s : KHttp2) (p : Bytes) (h : Handler) : KHttp2 × Ret :=
  let len := s.state.length
  let skip := if s.state.padding ≠ 0 ∧ p.length > len then min s.state.padding (p.length - len)
    else 0
  let s := s.setState fun st => { st with padding := st.padding - skip }
  let p := p.take len ++ p.drop (len + skip)
  if p.length < len + frameHeaderSize then s.stateSave p h
  else
    let head := parseUint32 (p.drop len)
    if parseType head ≠ continuationFrame then s.fail protocolError
    else
      let s := s.setState fun st => { st with
        length := st.length + parseLength head
        flags := st.flags ||| p.getD (len + 4) 0 }
      if s.state.sid ≠ parseSid (p.drop (len + 5)) then s.fail protocolError
      else (s, .pos h (p.take len ++ p.drop (len + frameHeaderSize)))

/-- `get_indexed_header`; `none` is `return false`. A dynamic entry is copied to the pool. -/
def getIndexedHeader (s : KHttp2) (index : ℕ) (nameOnly : Bool) : Option KHttp2 :=
  if index = 0 then none
  else
    match staticTable[index - 1]? with
    | some e => some (s.setState fun st => { st with header := ⟨some e.1, some e.2⟩ })
    | none =>
      let index := index - 1 - staticTable.length
      if index < s.hpack.added - s.hpack.deleted then
        let e := s.hpack.entry (s.hpack.added - index - 1)
        let s := if s.state.pool.isNone then s.setFault else s
        let name := s.hpack.copyString e.nameData e.nameLen
        let value := s.hpack.copyString e.valueData e.valueLen
        some (s.setState fun st => { st with
          header := ⟨some name, if nameOnly then st.header.value else some value⟩ })
      else none

/-- `KHttp2Sink::parse_header`: a trailer, or a header of the request, of which only `Expect`
matters to the connection. -/
def sinkParseHeader (s : KHttp2) (c : CtxId) (name value : Bytes) : KHttp2 :=
  s.modify c fun ctx =>
    if ctx.parsedHeader then
      if name.length > maxHeaderAttrValSize ∨ value.length > maxHeaderAttrValSize then ctx
      else { ctx with trailer := ctx.trailer ++ [(name, value)] }
    else if memCaseSame name (kglString "Expect") && memStr value (kglString "100-continue") then
      { ctx with haveExpect := true }
    else ctx

/-- `KHttp2Upstream::parse_header`: an interim status, a trailer, or a header for the callback. -/
def upstreamParseHeader (s : KHttp2) (c : CtxId) (name value : Bytes) : KHttp2 :=
  s.modify c fun ctx =>
    if name = kglString ":status" ∧ toInt32 (kglAtol value) = 100 then
      { ctx with is100Continue := true }
    else if ctx.parsedHeader ∧
        ¬(name.length > maxHeaderAttrValSize ∨ value.length > maxHeaderAttrValSize) then
      { ctx with trailer := ctx.trailer ++ [(name, value)] }
    else ctx

/-- `add_cookie`. -/
def addCookie (s : KHttp2) (c : CtxId) (value : Bytes) : KHttp2 :=
  (s.modify c fun ctx => { ctx with cookies := some (ctx.cookies.getD [] ++ [value]) }).log
    (.addCookie c value)

/-- The part of `state_process_header` that hands a complete pair to the stream. -/
def deliverHeader (s : KHttp2) : KHttp2 :=
  match s.state.stream, s.state.header.name, s.state.header.value with
  | some c, some name, some value =>
    if !(s.ctx c).isAvailable then s
    else if !s.clientModel && name == kglString "cookie" then s.addCookie c value
    else
      let s := s.log (.parseHeader c name value)
      if s.clientModel then s.upstreamParseHeader c name value else s.sinkParseHeader c name value
  | _, _, _ => s

/-- The part of `state_process_header` that inserts a pair in the dynamic table. -/
def insertHeader (s : KHttp2) : KHttp2 :=
  if s.state.index then
    let name := s.state.header.name.getD []
    let value := s.state.header.value.getD []
    ({ s with hpack := s.hpack.addHeader name value }.log (.addHeader name value)).setState
      fun st => { st with index := false }
  else s

/-- `state_process_header`. -/
def stateProcessHeader (s : KHttp2) (p : Bytes) : KHttp2 × Ret :=
  if s.state.parseName then
    let s := s.setState fun st =>
      { st with parseName := false, header := { st.header with name := st.field } }
    if strLen s.state.header.name = 0 then s.fail protocolError
    else (s, .jump .stateFieldLen p)
  else
    let s := if s.state.parseValue then s.setState fun st =>
        { st with parseValue := false, header := { st.header with value := st.field } }
      else s
    let len := strLen s.state.header.name + strLen s.state.header.value
    let s := s.setState fun st => { st with headerLength := (st.headerLength + len) % 2 ^ 32 }
    if s.state.headerLength > maxHeaderLength then s.fail enhanceYourCalm
    else (s.insertHeader.deliverHeader, .jump .stateHeaderComplete p)

/-- What the first octet of a field says: its prefix mask. -/
def fieldPrefix (ch : Byte) : ℕ :=
  if ch ≥ 128 then 127 else if ch ≥ 64 then 63 else if ch ≥ 32 then 31 else 15

/-- `state_header_block`. -/
def stateHeaderBlock (s : KHttp2) (p : Bytes) : KHttp2 × Ret :=
  match p with
  | [] => s.stateSave [] .stateHeaderBlock
  | ch :: _ =>
    if !hasFlag s.state.flags endHeadersFlag && s.state.length < intOctets then
      s.handleContinuation p .stateHeaderBlock
    else
      let s := if ch ≥ 64 ∧ ch < 128 then s.setState fun st => { st with index := true } else s
      match parseInt s.state.length p (fieldPrefix ch) with
      | .again => s.stateSave p .stateHeaderBlock
      | .declined => s.fail compError
      | .error => s.fail sizeError
      | .value value used =>
        let s := s.setState fun st => { st with length := st.length - used }
        let p := p.drop used
        if ch ≥ 128 then
          match s.getIndexedHeader value false with
          | none => s.fail compError
          | some s => (s, .jump .stateProcessHeader p)
        else if 32 ≤ ch ∧ ch < 64 then
          match s.hpack.tableSize value with
          | none => s.fail compError
          | some hpack => ({ s with hpack := hpack }, .jump .stateHeaderComplete p)
        else
          let named := if value = 0 then some (s.setState fun st => { st with parseName := true })
            else s.getIndexedHeader value true
          match named with
          | none => s.fail compError
          | some s =>
            (s.setState fun st => { st with parseValue := true }, .jump .stateFieldLen p)

/-- `construct_cookie_header`: the kept cookies become one header. -/
def constructCookieHeader (s : KHttp2) (c : CtxId) : KHttp2 :=
  match (s.ctx c).cookies with
  | none => s
  | some vals =>
    let value := [59, 32].intercalate vals
    (s.log (.cookieHeader c value)).sinkParseHeader c (kglString "cookie") value

/-- `on_header_success` of a stream that is available. -/
def headerSuccess (s : KHttp2) (c : CtxId) : KHttp2 :=
  let s := if s.clientModel then s else s.constructCookieHeader c
  let s := (s.log (.headerSuccess c)).setState fun st => { st with stream := none }
  if s.clientModel || (s.ctx c).parsedHeader then
    let e := (s.ctx c).readWait
    (s.modify c fun ctx => { ctx with readWait := none }).onRead c e 0
  else
    let s := s.modify c fun ctx => { ctx with parsedHeader := true }
    { s.log (.startFiber c ((s.ctx c).node.getD 0)) with
      processing := s.processing + 1
      owners := c :: s.owners }

/-- `on_header_success`. -/
def onHeaderSuccess (s : KHttp2) (c : CtxId) : KHttp2 :=
  let ctx := s.ctx c
  let s := if s.clientModel && ctx.hasUpgrade && ctx.readWait.isSome then
      s.log (.headerCallback c (kglString "Connection") (kglString "Upgrade"))
    else s
  if s.clientModel && ctx.is100Continue then
    -- the event stays for the final header, without its fiber
    (s.modify c fun ctx => { ctx with
      is100Continue := false
      readWait := ctx.readWait.map fun e => { e with fiber := false } }).onRead c ctx.readWait 0
  else
    let s := if s.clientModel then s.modify c fun ctx => { ctx with parsedHeader := true } else s
    if (s.ctx c).isAvailable then s.headerSuccess c else s

/-- `state_header_complete`. -/
def stateHeaderComplete (s : KHttp2) (p : Bytes) : KHttp2 × Ret :=
  if s.state.length ≠ 0 then (s, .pos .stateHeaderBlock p)
  else if !hasFlag s.state.flags endHeadersFlag then
    s.handleContinuation p .stateHeaderComplete
  else
    let s := match s.state.stream with
      | none => s
      | some c => s.onHeaderSuccess c
    (s.setState fun st => { st with pool := none, keepPool := false }).endFrame p

/-- `state_field_len`. -/
def stateFieldLen (s : KHttp2) (p : Bytes) : KHttp2 × Ret :=
  if !hasFlag s.state.flags endHeadersFlag && s.state.length < intOctets then
    s.handleContinuation p .stateFieldLen
  else if s.state.length < 1 then s.fail sizeError
  else
    match p with
    | [] => s.stateSave [] .stateFieldLen
    | ch :: _ =>
      match parseInt s.state.length p 127 with
      | .again => s.stateSave p .stateFieldLen
      | .declined => s.fail compError
      | .error => s.fail sizeError
      | .value len used =>
        let s := s.setState fun st => { st with length := st.length - used, fieldRest := len }
        let p := p.drop used
        if len > maxFieldSize then (s, .jump .stateFieldSkip p)
        else if s.state.stream.all fun c => (s.ctx c).destroyByHttp2 then
          (s, .jump .stateFieldSkip p)
        else
          (s.setState fun st => { st with field := some [] },
            .jump (if ch ≥ 128 then .stateFieldHuff else .stateFieldRaw) p)

/-- The bytes that the `state_field_*` handlers take at once. -/
def fieldSize (s : KHttp2) (p : Bytes) : ℕ :=
  min (min p.length s.state.fieldRest) s.state.length

/-- The end of the `state_field_*` handlers, after they took their bytes. -/
def fieldNext (s : KHttp2) (p : Bytes) (h : Handler) : KHttp2 × Ret :=
  if s.state.fieldRest = 0 then (s, .jump .stateProcessHeader p)
  else if s.state.length ≠ 0 then s.stateSave p h
  else if hasFlag s.state.flags endHeadersFlag then s.fail sizeError
  else s.handleContinuation p h

/-- The bookkeeping of the `state_field_*` handlers for the bytes they take. -/
def fieldTake (s : KHttp2) (size : ℕ) : KHttp2 :=
  s.setState fun st => { st with length := st.length - size, fieldRest := st.fieldRest - size }

/-- `state_field_huff`. -/
def stateFieldHuff (codes : HuffDecodeCodes) (s : KHttp2) (p : Bytes) : KHttp2 × Ret :=
  let size := s.fieldSize p
  let s := s.fieldTake size
  match huffDecode codes s.state.fieldState (p.take size) (s.state.field.getD [])
      (s.state.fieldRest = 0) with
  | none => s.fail compError
  | some (fieldState, field) =>
    (s.setState fun st => { st with fieldState := fieldState, field := some field }).fieldNext
      (p.drop size) .stateFieldHuff

/-- `state_field_raw`. -/
def stateFieldRaw (s : KHttp2) (p : Bytes) : KHttp2 × Ret :=
  let size := s.fieldSize p
  ((s.fieldTake size).setState fun st =>
    { st with field := some (st.field.getD [] ++ p.take size) }).fieldNext
      (p.drop size) .stateFieldRaw

/-- `state_field_skip`. -/
def stateFieldSkip (s : KHttp2) (p : Bytes) : KHttp2 × Ret :=
  let size := s.fieldSize p
  (s.fieldTake size).fieldNext (p.drop size) .stateFieldSkip

/-! ## HEADERS -/

/-- `create_stream`. -/
def createStream (s : KHttp2) : KHttp2 × CtxId :=
  let c := s.nextCtx
  let s := { s with
    nextCtx := c + 1
    ctx := Function.update s.ctx c (.init (toInt32 s.initWindow)) }
  (if s.clientModel then s else s.setState fun st => { st with keepPool := true }, c)

/-- Record END_STREAM. -/
def logEnd (s : KHttp2) (c : CtxId) (fin : Bool) : KHttp2 :=
  if fin then s.log (.endStream c) else s

/-- A HEADERS frame for a stream that exists: a response header, or trailers. -/
def headersForStream (s : KHttp2) (c : CtxId) (p : Bytes) : KHttp2 × Ret :=
  let s := s.removeQueue c
  if !(s.ctx c).isAvailable || (s.ctx c).inClosed then (s, .jump .stateSkip p)
  else
    let s := s.setState fun st => { st with pool := some c, keepPool := true, stream := some c }
    let fin := hasFlag s.state.flags endStreamFlag
    ((s.modify c fun ctx => { ctx with inClosed := fin }).logEnd c fin, .jump .stateHeaderBlock p)

/-- A HEADERS frame that opens a stream. -/
def headersNewStream (s : KHttp2) (p : Bytes) : KHttp2 × Ret :=
  let r := s.createStream
  let c := r.2
  let fin := hasFlag s.state.flags endStreamFlag
  let s := (r.1.modify c fun ctx => { ctx with inClosed := fin, node := some s.state.sid }).logEnd
    c fin
  let s := s.newNode s.state.sid c
  (s.setState fun st => { st with stream := some c, pool := some c }, .jump .stateHeaderBlock p)

/-- `state_headers` from the choice between client and server on. -/
def headersStream (s : KHttp2) (depend : ℕ) (p : Bytes) : KHttp2 × Ret :=
  let sid := s.state.sid
  if s.clientModel then
    match s.getNode sid with
    | none => (s, .jump .stateSkip p)
    | some ⟨_, c⟩ => s.headersForStream c p
  else if sid % 2 = 0 ∨ sid < s.lastPeerSid then s.fail protocolError
  else if s.selfGoaway then (s.sendRstStream none sid noError, .jump .stateHeaderBlock p)
  else
    let s := { s with lastPeerSid := sid }
    if depend = sid then (s.sendRstStream none sid protocolError, .jump .stateHeaderBlock p)
    else
      match s.getNode sid with
      | some ⟨_, c⟩ => s.headersForStream c p
      | none => s.headersNewStream p

/-- `state_headers`. -/
def stateHeaders (s : KHttp2) (p : Bytes) : KHttp2 × Ret :=
  let s := s.setState fun st => { st with headerLength := 0 }
  let padded := hasFlag s.state.flags paddedFlag
  let priority := hasFlag s.state.flags priorityFlag
  let size := (if padded then 1 else 0) + (if priority then 5 else 0)
  if s.state.length < size then s.fail sizeError
  else if s.state.length = size then s.fail sizeError
  else if p.length < size then s.stateSave p .stateHeaders
  else
    let s := s.setState fun st => { st with length := st.length - size }
    let s := if padded then s.setState fun st => { st with padding := (p.getD 0 0).toNat } else s
    if padded && s.state.padding > s.state.length then s.fail sizeError
    else
      let s := if padded then s.setState fun st => { st with length := st.length - st.padding }
        else s
      let depend := if priority then parseSid (p.drop (if padded then 1 else 0)) else 0
      s.headersStream depend (p.drop size)

/-! ## The other frames -/

/-- `state_priority`. -/
def statePriority (s : KHttp2) (p : Bytes) : KHttp2 × Ret :=
  if s.state.length ≠ 5 then s.fail sizeError
  else if p.length < 5 then s.stateSave p .statePriority
  else if s.state.sid = 0 then s.fail protocolError
  else (s, .jump .stateComplete (p.drop 5))

/-- `state_rst_stream`. -/
def stateRstStream (s : KHttp2) (p : Bytes) : KHttp2 × Ret :=
  if s.state.length ≠ 4 then s.fail sizeError
  else if p.length < 4 then s.stateSave p .stateRstStream
  else if s.state.sid = 0 then s.fail protocolError
  else
    match s.getNode s.state.sid with
    | none => (s, .jump .stateComplete (p.drop 4))
    | some ⟨_, c⟩ =>
      let ctx := s.ctx c
      let s := (s.resetStream c).modify c fun ctx =>
        { ctx with readBuffer := ctx.readBuffer.map fun _ => [] }
      (s.wakeReset c ctx, .jump .stateComplete (p.drop 4))

/-- `state_settings`. -/
def stateSettings (s : KHttp2) (p : Bytes) : KHttp2 × Ret :=
  if s.state.flags = ackFlag then
    if s.state.length ≠ 0 then s.fail sizeError else (s, .jump .stateComplete p)
  else if s.state.length % 6 ≠ 0 then s.fail sizeError
  else (s.sendSettingsAck, .jump .stateSettingsParams p)

/-- One round of the loop of `state_settings_params`. -/
def stateSettingsParams (s : KHttp2) (p : Bytes) : KHttp2 × Ret :=
  if s.state.length = 0 then (s, .jump .stateComplete p)
  else if p.length < 6 then s.stateSave p .stateSettingsParams
  else
    let s := s.setState fun st => { st with length := st.length - 6 }
    let id := parseUint16 p
    let value := parseUint32 (p.drop 2)
    let next : Ret := .jump .stateSettingsParams (p.drop 6)
    match id with
    | 0x4 =>
      if value > maxWindow then s.fail flowCtrlError
      else ((s.log (.setting id value)).adjustWindows value, next)
    | 0x5 =>
      if value > maxFrameSize ∨ value < defaultFrameSize then s.fail protocolError
      else ({ s.log (.setting id value) with frameSize := value }, next)
    | 0x8 => ({ s.log (.setting id value) with enableConnect := value ≠ 0 }, next)
    | _ => (s.log (.setting id value), next)

/-- `state_push_promise`. -/
def statePushPromise (s : KHttp2) (p : Bytes) : KHttp2 × Ret := (s, .jump .stateSkip p)

/-- `state_ping`. -/
def statePing (s : KHttp2) (p : Bytes) : KHttp2 × Ret :=
  if s.state.length ≠ 8 then s.fail sizeError
  else if p.length < 8 then s.stateSave p .statePing
  else if hasFlag s.state.flags ackFlag then (s, .jump .stateSkip p)
  else
    let payload := List.replicate 8 0
    ((s.pushGetFrame none 0 payload pingFrame ackFlag false).startWrite,
      .jump .stateComplete (p.drop 8))

/-- `state_goaway`. -/
def stateGoaway (s : KHttp2) (p : Bytes) : KHttp2 × Ret :=
  if s.state.length < 8 then s.fail sizeError
  else if p.length < 8 then s.stateSave p .stateGoaway
  else ({ s with peerGoaway := true }, .jump .stateSkip p)

/-- `state_window_update` for a stream. -/
def streamWindowUpdate (s : KHttp2) (window : ℕ) : KHttp2 :=
  match s.getNode s.state.sid with
  | none => s
  | some ⟨_, c⟩ =>
    if window > toUint32 (maxWindow - (s.ctx c).sendWindow) then
      (s.terminateStream c flowCtrlError).1
    else
      let s := s.log (.windowUpdate (some c) window)
      let s := s.modify c fun ctx => { ctx with sendWindow := toInt32 (ctx.sendWindow + window) }
      if (s.ctx c).waitsForWindow then s.onWriteWindowReady c else s

/-- `state_window_update`. -/
def stateWindowUpdate (s : KHttp2) (p : Bytes) : KHttp2 × Ret :=
  if s.state.length ≠ 4 then s.fail sizeError
  else if p.length < 4 then s.stateSave p .stateWindowUpdate
  else
    let window := parseSid p
    let next : Ret := .jump .stateComplete (p.drop 4)
    if s.state.sid ≠ 0 then (s.streamWindowUpdate window, next)
    else if window > toUint32 (maxWindow - s.sendWindow) then s.fail flowCtrlError
    else
      let s' := { s.log (.windowUpdate none window) with
        sendWindow := toUint32 (s.sendWindow + window) }
      (if s.sendWindow = 0 then s'.checkWriteWait else s', next)

/-- `state_continuation`. -/
def stateContinuation (s : KHttp2) (_ : Bytes) : KHttp2 × Ret := s.fail protocolError

/-- `state_altsvc`. -/
def stateAltsvc (s : KHttp2) (p : Bytes) : KHttp2 × Ret :=
  if s.state.length < 2 then s.fail sizeError
  else if p.length < 2 then s.stateSave p .stateAltsvc
  else (s, .jump .stateSkip p)

/-! ## Dispatch -/

/-- The call `(this->*handler)(pos, end)`. -/
def exec (codes : HuffDecodeCodes) (h : Handler) (s : KHttp2) (p : Bytes) : KHttp2 × Ret :=
  match h with
  | .statePreface => s.statePreface p
  | .statePrefaceEnd => s.statePrefaceEnd p
  | .stateHead => s.stateHead p
  | .stateData => s.stateData p
  | .stateReadData => s.stateReadData p
  | .stateHeaders => s.stateHeaders p
  | .stateHeaderBlock => s.stateHeaderBlock p
  | .stateProcessHeader => s.stateProcessHeader p
  | .stateHeaderComplete => s.stateHeaderComplete p
  | .stateFieldLen => s.stateFieldLen p
  | .stateFieldHuff => s.stateFieldHuff codes p
  | .stateFieldRaw => s.stateFieldRaw p
  | .stateFieldSkip => s.stateFieldSkip p
  | .statePriority => s.statePriority p
  | .stateRstStream => s.stateRstStream p
  | .stateSettings => s.stateSettings p
  | .stateSettingsParams => s.stateSettingsParams p
  | .statePushPromise => s.statePushPromise p
  | .statePing => s.statePing p
  | .stateGoaway => s.stateGoaway p
  | .stateWindowUpdate => s.stateWindowUpdate p
  | .stateContinuation => s.stateContinuation p
  | .stateAltsvc => s.stateAltsvc p
  | .stateSkip => s.stateSkip p
  | .stateComplete => s.stateComplete p

end KHttp2

end Khttpd
