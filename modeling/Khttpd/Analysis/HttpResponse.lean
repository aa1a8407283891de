import Mathlib.Data.Nat.Digits.Lemmas
import Khttpd.Analysis.ChunkedMessage
import Khttpd.Analysis.Http3Sink
import Khttpd.Model.HttpResponse

/-!
# Chunked responses

What each call of a chunked response sends while the socket takes everything, and when the whole is
a message: no buffer without bytes, no trailer in front of the header section.
-/

set_option autoImplicit false

namespace Khttpd

/-! ## The text of a chunk size -/

/-- A digit of `%x` is a digit of a chunk size. -/
theorem hexDigit_hexChar {digit : ℕ} (h : digit < 16) : hexDigit (hexChar digit) = some digit := by
  have hall : ∀ d : Fin 16, hexDigit (hexChar d) = some d.val := by decide
  exact hall ⟨digit, h⟩

/-- The value of the digits of `%x`, the last one first. -/
theorem hexValue_reverse {digits : List ℕ} (h : ∀ d ∈ digits, d < 16) :
    hexValue (digits.reverse.map hexChar) = Nat.ofDigits 16 digits := by
  induction digits with
  | nil => rfl
  | cons d digits ih =>
    have hd : (hexDigit (hexChar d)).getD 0 = d := by
      rw [hexDigit_hexChar (h d List.mem_cons_self)]
      rfl
    have hrest := ih fun d' hd' => h d' (List.mem_cons_of_mem _ hd')
    unfold hexValue at hrest ⊢
    rw [List.reverse_cons, List.map_append, List.map_singleton, List.foldl_concat, hrest, hd,
      Nat.ofDigits_cons]
    ring

/-- The text of a chunk size has digits. -/
theorem sprintfX_ne (n : ℕ) : sprintfX n ≠ [] := by
  unfold sprintfX
  split
  · exact List.cons_ne_nil _ _
  · rename_i hn
    rw [Ne, List.map_eq_nil_iff, List.reverse_eq_nil_iff]
    exact Nat.digits_ne_nil_iff_ne_zero.mpr hn

/-- The text of a chunk size has only digits. -/
theorem sprintfX_hex (n : ℕ) : ∀ ch ∈ sprintfX n, (hexDigit ch).isSome := by
  intro ch hch
  unfold sprintfX at hch
  split at hch
  · rw [List.mem_singleton.mp hch]
    decide
  · obtain ⟨d, hd, rfl⟩ := List.mem_map.mp hch
    rw [hexDigit_hexChar (Nat.digits_lt_base (by decide) (List.mem_reverse.mp hd))]
    rfl

/-- The text of a chunk size has its value. -/
theorem hexValue_sprintfX (n : ℕ) : hexValue (sprintfX n) = n := by
  unfold sprintfX
  split
  · rename_i hn
    rw [hn]
    decide
  · rw [hexValue_reverse fun d hd => Nat.digits_lt_base (by decide) hd]
    exact Nat.ofDigits_digits 16 n

/-- The size line that a chunk header is. -/
def sizeLineOf (n : ℕ) : ChunkSizeLine where
  digits := sprintfX n
  ext := []
  digits_ne := sprintfX_ne n
  digits_hex := sprintfX_hex n
  ext_head := nofun
  ext_text := nofun

/-- A chunk header is a size line. -/
theorem chunkHeader_eq (n : ℕ) : chunkHeader n = (sizeLineOf n).encode := by
  unfold chunkHeader ChunkSizeLine.encode
  show _ = sprintfX n ++ [] ++ crlf
  rw [List.append_nil]
  rfl

/-! ## A socket that takes everything -/

namespace Socket

/-- The socket after it took bytes. -/
def took (cn : Socket) (bytes : Bytes) : Socket := { cn with sent := cn.sent ++ bytes }

theorem write_none {cn : Socket} (h : cn.room = none) (bytes : Bytes) :
    cn.write bytes = (cn.took bytes, bytes.length) := by
  unfold write took
  rw [h]

theorem writeFull_none {cn : Socket} (h : cn.room = none) (bytes : Bytes) :
    cn.writeFull bytes = (cn.took bytes, 0) := by
  unfold writeFull
  rw [write_none h]
  dsimp only
  rw [Nat.sub_self]

theorem took_took (cn : Socket) (bytes more : Bytes) :
    (cn.took bytes).took more = cn.took (bytes ++ more) := by
  unfold took
  rw [List.append_assoc]

/-- The loop over a chain sends the bytes and the suffix. -/
theorem writeBufLoop_none {cn : Socket} (h : cn.room = none) (suffix : Option Bytes) {fuel : ℕ}
    {buf : List Bytes} (hfuel : buf.length < fuel) {bufLength : ℤ} (hpos : 0 < bufLength)
    (hlen : bufLength ≤ buf.flatten.length) (length : ℤ) :
    writeBufLoop suffix fuel buf cn bufLength length =
      some (cn.took (buf.flatten.take bufLength.toNat ++ suffix.getD []),
        length - bufLength - (suffix.getD []).length) := by
  induction fuel generalizing buf cn bufLength length with
  | zero => exact absurd hfuel (Nat.not_lt_zero _)
  | succ fuel ih =>
    obtain ⟨iovecBuf, left, rest, hprep, hp⟩ := KHttp3Sink.prepareLoop_spec (rqWriteBufCount - 1)
      buf bufLength (Int.le_of_lt hpos) hlen
    have htaken := hp.taken
    have henough := hp.enough
    have hbytes := congrArg List.length hp.bytes
    rw [List.length_take] at hbytes
    rw [writeBufLoop, if_pos hpos, hprep, Option.bind_some]
    dsimp only
    by_cases hleft : left = 0
    · have hjoin : (iovecBuf ++ suffix.toList).flatten = iovecBuf.flatten ++ suffix.getD [] := by
        rw [List.flatten_append]
        cases suffix with
        | none => rfl
        | some suffix => exact congrArg _ (List.append_nil suffix)
      have hall : iovecBuf.flatten = buf.flatten.take bufLength.toNat := by
        have hcount : bufLength.toNat = iovecBuf.flatten.length := by omega
        rw [hcount, ← hp.take (Nat.le_refl _), List.take_length]
      rw [if_pos hleft, hjoin, hall, write_none h]
      dsimp only
      rw [if_neg (Nat.lt_irrefl _), hleft]
      have hstop : ∀ (fuel : ℕ) (buf : List Bytes) (cn : Socket) (length : ℤ),
          writeBufLoop suffix fuel buf cn 0 length = some (cn, length) := by
        intro fuel buf cn length
        cases fuel with
        | zero => rfl
        | succ fuel => rw [writeBufLoop, if_neg (Int.lt_irrefl 0)]
      rw [hstop]
      have hcount : (buf.flatten.take bufLength.toNat).length = bufLength.toNat := by
        rw [List.length_take]
        omega
      rw [List.length_append, hcount]
      congr 2
      omega
    · have hmore : 0 < left := by omega
      have hrest := (hp.more hmore).1
      have hnonempty : buf ≠ [] := by
        rintro rfl
        rw [List.flatten_nil, List.length_nil] at hlen
        omega
      have hshorter : rest.length < fuel := by
        rw [hrest, List.length_drop]
        have hlength := List.length_pos_iff.mpr hnonempty
        have hcount : rqWriteBufCount = 64 := rfl
        omega
      have hroom : (cn.took iovecBuf.flatten).room = none := h
      rw [if_neg hleft, write_none h]
      dsimp only
      rw [if_neg (Nat.lt_irrefl _), ih hroom hshorter hmore henough,
        took_took]
      have hall : iovecBuf.flatten ++ (rest.flatten.take left.toNat ++ suffix.getD []) =
          buf.flatten.take bufLength.toNat ++ suffix.getD [] := by
        rw [← List.append_assoc]
        congr 1
        have hcount : bufLength.toNat = iovecBuf.flatten.length + left.toNat := by omega
        rw [hcount, hp.take_add fun _ => hmore]
      rw [hall]
      congr 2
      omega

/-- A chain is sent with the suffix behind it. -/
theorem writeBuf_none {cn : Socket} (h : cn.room = none) (suffix : Option Bytes)
    {buf : List Bytes} {length : ℤ} (hpos : 0 < length) (hlen : length ≤ buf.flatten.length) :
    cn.writeBuf buf length suffix =
      some (cn.took (buf.flatten.take length.toNat ++ suffix.getD []), 0) := by
  unfold writeBuf
  rw [writeBufLoop_none h suffix (Nat.lt_succ_self _) hpos hlen]
  congr 2
  omega

end Socket

/-! ## What the calls send -/

namespace KHttpResponse

/-- A chunked response whose socket takes everything. -/
structure Streaming (s : KHttpResponse) : Prop where
  chunked : s.teChunked = true
  left : s.responseLeft = -1
  room : s.cn.room = none

/-- A call that sends the pending headers and `bytes`. -/
structure Sends (s s' : KHttpResponse) (bytes : Bytes) : Prop where
  cn : s'.cn = s.cn.took (s.rc.flatten ++ bytes)
  rc : s'.rc = []
  left : s'.responseLeft = s.responseLeft
  chunked : s'.teChunked = s.teChunked
  chunk0 : s'.hasSendChunk0 = s.hasSendChunk0

/-- The response goes on. -/
theorem Sends.streaming {s s' : KHttpResponse} {bytes : Bytes} (h : s.Sends s' bytes)
    (hs : s.Streaming) : s'.Streaming :=
  ⟨h.chunked.trans hs.chunked, h.left.trans hs.left, by rw [h.cn]; exact hs.room⟩

/-- Without a length nothing of the response is counted down. -/
theorem Sends.onSuccessResponse {s s' : KHttpResponse} {bytes : Bytes} (h : s.Sends s' bytes)
    (hs : s.Streaming) (len : ℤ) : s.Sends (s'.onSuccessResponse len) bytes := by
  unfold KHttpResponse.onSuccessResponse
  split
  · have hneg : ¬0 ≤ s'.responseLeft := by
      rw [h.left, hs.left]
      decide
    rw [if_neg hneg]
    exact ⟨h.cn, h.rc, h.left, h.chunked, h.chunk0⟩
  · exact h

/-- `internal_write` sends the pending headers, the buffers and the suffix. -/
theorem internalWrite_sends {s : KHttpResponse} (hs : s.Streaming) {buf : List Bytes} {len : ℤ}
    (hpos : 0 < len) (hlen : len ≤ buf.flatten.length) (suffix : Option Bytes) :
    ∃ s', s.internalWrite buf len suffix = some (s', 0) ∧
      s.Sends s' (buf.flatten.take len.toNat ++ suffix.getD []) := by
  unfold internalWrite writeBuf
  by_cases hrc : s.rc = []
  · rw [if_neg (not_not.mpr hrc), Socket.writeBuf_none hs.room suffix hpos hlen]
    have hsends : s.Sends
        { s with cn := s.cn.took (buf.flatten.take len.toNat ++ suffix.getD []) }
        (buf.flatten.take len.toNat ++ suffix.getD []) := by
      refine ⟨?_, hrc, rfl, rfl, rfl⟩
      rw [hrc]
      rfl
    exact ⟨_, rfl, hsends.onSuccessResponse hs _⟩
  · have hboth : (s.rc ++ buf).flatten = s.rc.flatten ++ buf.flatten := List.flatten_append
    have hlength : s.rcLen + len ≤ (s.rc ++ buf).flatten.length := by
      rw [hboth, List.length_append]
      unfold rcLen
      omega
    have hpos' : 0 < s.rcLen + len := by
      unfold rcLen
      omega
    have htake : (s.rc ++ buf).flatten.take (s.rcLen + len).toNat =
        s.rc.flatten ++ buf.flatten.take len.toNat := by
      have hcount : (s.rcLen + len).toNat = s.rc.flatten.length + len.toNat := by
        unfold rcLen
        omega
      rw [hboth, hcount, List.take_length_add_append]
    have hsends : s.Sends
        { s with
            cn := s.cn.took (s.rc.flatten ++ (buf.flatten.take len.toNat ++ suffix.getD []))
            rc := [] }
        (buf.flatten.take len.toNat ++ suffix.getD []) := ⟨rfl, rfl, rfl, rfl, rfl⟩
    rw [if_pos hrc, Socket.writeBuf_none hs.room suffix hpos' hlength, htake, List.append_assoc]
    exact ⟨_, rfl, hsends.onSuccessResponse hs _⟩

/-- A chunk on the wire. -/
def chunkWire (bytes : Bytes) : Bytes := chunkHeader bytes.length ++ (bytes ++ crlf)

/-- `write_all` of a chain sends a chunk. -/
theorem writeAllBuf_sends {s : KHttpResponse} (hs : s.Streaming) {buf : List Bytes} {len : ℕ}
    (henough : len ≤ buf.flatten.length) :
    ∃ s', s.writeAllBuf buf len = some (s', 0) ∧ s.Sends s' (chunkWire (buf.flatten.take len)) := by
  have hheader : 0 < (chunkHeader len).length := by
    unfold chunkHeader crlfText
    rw [List.length_append]
    exact Nat.lt_add_left _ (by decide)
  have hflat : (chunkHeader len :: buf).flatten = chunkHeader len ++ buf.flatten :=
    List.flatten_cons
  have hpos : (0 : ℤ) < len + (chunkHeader len).length := by omega
  have hle : (len : ℤ) + (chunkHeader len).length ≤ (chunkHeader len :: buf).flatten.length := by
    rw [hflat, List.length_append]
    omega
  have hwire := internalWrite_sends hs hpos hle (some crlfText)
  have hcount : ((len : ℤ) + (chunkHeader len).length).toNat = (chunkHeader len).length + len := by
    omega
  rw [hflat, hcount, List.take_length_add_append] at hwire
  have hlength : (buf.flatten.take len).length = len := by
    rw [List.length_take]
    omega
  unfold writeAllBuf chunkWire
  rw [if_pos hs.chunked, hlength, ← List.append_assoc]
  exact hwire

/-- `write_all` of a string sends a chunk. -/
theorem writeAll_sends {s : KHttpResponse} (hs : s.Streaming) (str : Bytes) :
    ∃ s', s.writeAll str = some (s', 0) ∧ s.Sends s' (chunkWire str) := by
  have hflat : [str].flatten = str := List.append_nil str
  have henough : str.length ≤ [str].flatten.length := by rw [hflat]
  have hbuf := writeAllBuf_sends hs henough
  rw [hflat, List.take_length] at hbuf
  unfold writeAllBuf at hbuf
  rw [if_pos hs.chunked] at hbuf
  unfold writeAll
  rw [if_pos hs.chunked]
  exact hbuf

/-- The pending headers are sent on their own. -/
theorem writeBuf_rc {s : KHttpResponse} (hs : s.Streaming) (hrc : s.rc.flatten ≠ []) :
    s.writeBuf s.rc s.rcLen none = some ({ s with cn := s.cn.took s.rc.flatten }, 0) := by
  have hpos := List.length_pos_iff.mpr hrc
  have hcount : s.rcLen.toNat = s.rc.flatten.length := rfl
  have hlen : s.rcLen ≤ s.rc.flatten.length := Int.le_refl _
  unfold writeBuf
  rw [Socket.writeBuf_none hs.room none (by unfold rcLen; omega) hlen, hcount, List.take_length]
  rw [show s.rc.flatten ++ (none : Option Bytes).getD [] = s.rc.flatten from List.append_nil _]
  rfl

/-- `sendfile` sends a chunk and a null byte. -/
theorem sendfile_sends {s : KHttpResponse} (hs : s.Streaming)
    (hrc : s.rc = [] ∨ s.rc.flatten ≠ []) (content : Bytes) :
    ∃ s', s.sendfile content = some (s', (content.length : ℤ)) ∧
      s.Sends s' (chunkWire content ++ [0]) := by
  have hflush : (if s.rc ≠ [] then
      (s.writeBuf s.rc s.rcLen none).map fun r => ({ r.1 with rc := [] }, r.2)
      else some (s, 0)) = some ({ s with cn := s.cn.took s.rc.flatten, rc := [] }, 0) := by
    by_cases hnil : s.rc = []
    · rw [if_neg (not_not.mpr hnil), hnil]
      obtain ⟨cn, responseLeft, sendSize, rc, teChunked, hasSendChunk0, connectionClose⟩ := s
      dsimp only at hnil
      rw [hnil]
      unfold Socket.took
      rw [List.flatten_nil, List.append_nil]
    · rw [if_pos hnil, writeBuf_rc hs (hrc.resolve_left hnil)]
      rfl
  have hroom : (s.cn.took s.rc.flatten).room = none := hs.room
  have hheader : ((s.cn.took s.rc.flatten).took (chunkHeader content.length)).room = none := hs.room
  have hcontent : (((s.cn.took s.rc.flatten).took (chunkHeader content.length)).took
      content).room = none := hs.room
  unfold sendfile
  rw [hflush, Option.map_some]
  dsimp only
  rw [if_neg (fun h => h rfl), hs.chunked, Bool.not_true, if_neg Bool.false_ne_true,
    Socket.writeFull_none hroom]
  dsimp only
  rw [if_neg (fun h => h rfl), Socket.writeFull_none hheader]
  dsimp only
  rw [if_neg (fun h => h rfl), Socket.writeFull_none hcontent]
  dsimp only
  rw [if_neg (fun h => h rfl)]
  have hsends : s.Sends
      { s with
          cn := (((s.cn.took s.rc.flatten).took (chunkHeader content.length)).took content).took
            (crlfText ++ [0])
          rc := [] }
      (chunkWire content ++ [0]) := by
    refine ⟨?_, rfl, rfl, rfl, rfl⟩
    dsimp only
    rw [Socket.took_took, Socket.took_took, Socket.took_took]
    unfold chunkWire
    simp only [List.append_assoc]
    rfl
  have hdone := hsends.onSuccessResponse hs
  rw [hs.chunked] at hdone
  exact ⟨_, rfl, hdone _⟩

/-- A part on the wire. -/
def partWire : BodyPart → Bytes
  | .str text => chunkWire text
  | .buf chain len _ => chunkWire (chain.flatten.take len)
  | .file content => chunkWire content ++ [0]

/-- A part is sent behind the pending headers. -/
theorem writePart_sends {s : KHttpResponse} (hs : s.Streaming)
    (hrc : s.rc = [] ∨ s.rc.flatten ≠ []) (part : BodyPart) :
    ∃ s' n, s.writePart part = some (s', n) ∧ s.Sends s' (partWire part) := by
  cases part with
  | str text =>
    obtain ⟨s', hrun, hsends⟩ := writeAll_sends hs text
    exact ⟨s', 0, hrun, hsends⟩
  | buf chain len henough =>
    obtain ⟨s', hrun, hsends⟩ := writeAllBuf_sends hs henough
    exact ⟨s', 0, hrun, hsends⟩
  | file content =>
    obtain ⟨s', hrun, hsends⟩ := sendfile_sends hs hrc content
    exact ⟨s', content.length, hrun, hsends⟩

/-- The parts are sent behind the pending headers. -/
theorem writeParts_sends {s : KHttpResponse} (hs : s.Streaming)
    (hrc : s.rc = [] ∨ s.rc.flatten ≠ []) {parts : List BodyPart} (hne : parts ≠ []) :
    ∃ s', s.writeParts parts = some s' ∧ s.Sends s' (parts.flatMap partWire) := by
  induction parts generalizing s with
  | nil => exact absurd rfl hne
  | cons part parts ih =>
    obtain ⟨s1, n, hrun, hsends⟩ := writePart_sends hs hrc part
    rw [writeParts, hrun, Option.bind_some, List.flatMap_cons]
    by_cases hparts : parts = []
    · subst hparts
      refine ⟨s1, rfl, ?_⟩
      rw [List.flatMap_nil, List.append_nil]
      exact hsends
    · obtain ⟨s2, hrun2, hsends2⟩ := ih (hsends.streaming hs) (Or.inl hsends.rc) hparts
      refine ⟨s2, hrun2, ?_, hsends2.rc, hsends2.left.trans hsends.left,
        hsends2.chunked.trans hsends.chunked, hsends2.chunk0.trans hsends.chunk0⟩
      rw [hsends2.cn, hsends.cn, hsends.rc, Socket.took_took, List.flatten_nil, List.nil_append,
        List.append_assoc]

/-- A trailer on the wire. -/
def trailerWire (t : Bytes × Bytes) : Bytes := t.1 ++ kglString ": " ++ t.2 ++ crlf

/-- The size line of the last chunk. -/
def lastWire : Bytes := chunkHeader 0

/-- A trailer behind others. -/
theorem responseTrailers_more {s : KHttpResponse} (hs : s.Streaming) (h0 : s.hasSendChunk0 = true)
    (trailers : List (Bytes × Bytes)) :
    s.responseTrailers trailers = { s with cn := s.cn.took (trailers.flatMap trailerWire) } := by
  induction trailers generalizing s with
  | nil =>
    rw [List.flatMap_nil]
    unfold Socket.took
    rw [List.append_nil]
    rfl
  | cons t trailers ih =>
    have hone : (s.responseTrailer t.1 t.2).1 = { s with cn := s.cn.took (trailerWire t) } := by
      unfold responseTrailer
      rw [hs.chunked, h0]
      dsimp only
      rw [Bool.not_true, if_neg Bool.false_ne_true, if_pos rfl, Socket.writeFull_none hs.room,
        List.nil_append, ← hs.chunked]
      rfl
    have hmore := ih (s := { s with cn := s.cn.took (trailerWire t) })
      ⟨hs.chunked, hs.left, hs.room⟩ h0
    unfold responseTrailers at hmore ⊢
    rw [List.foldl_cons, hone, hmore, List.flatMap_cons]
    dsimp only
    rw [Socket.took_took]

/-- The first trailer sends the size line of the last chunk. -/
theorem responseTrailers_first {s : KHttpResponse} (hs : s.Streaming)
    (h0 : s.hasSendChunk0 = false) {trailers : List (Bytes × Bytes)} (hne : trailers ≠ []) :
    s.responseTrailers trailers =
      { s with
          cn := s.cn.took (lastWire ++ trailers.flatMap trailerWire)
          hasSendChunk0 := true } := by
  cases trailers with
  | nil => exact absurd rfl hne
  | cons t trailers =>
    have hone : (s.responseTrailer t.1 t.2).1 =
        { s with cn := s.cn.took (lastWire ++ trailerWire t), hasSendChunk0 := true } := by
      unfold responseTrailer
      rw [hs.chunked, h0]
      dsimp only
      rw [Bool.not_true, if_neg Bool.false_ne_true, if_neg Bool.false_ne_true,
        Socket.writeFull_none hs.room, ← hs.chunked]
      have hwire : kglString "0" ++ crlfText ++ t.1 ++ kglString ": " ++ t.2 ++ crlfText =
          lastWire ++ trailerWire t := by
        unfold lastWire trailerWire
        simp only [List.append_assoc]
        rfl
      rw [hwire]
    have hmore := responseTrailers_more
      (s := { s with cn := s.cn.took (lastWire ++ trailerWire t), hasSendChunk0 := true })
      ⟨hs.chunked, hs.left, hs.room⟩ rfl trailers
    unfold responseTrailers at hmore ⊢
    rw [List.foldl_cons, hone, hmore, List.flatMap_cons]
    dsimp only
    rw [Socket.took_took, List.append_assoc]

/-- `end_request` sends what is pending and the end of the message. -/
theorem endRequest_sends {s : KHttpResponse} (hs : s.Streaming)
    (hrc : s.rc = [] ∨ s.rc.flatten ≠ []) :
    ∃ s', s.endRequest = some s' ∧ s'.cn = s.cn.took
      (s.rc.flatten ++ if s.hasSendChunk0 then crlf else lastWire ++ crlf) := by
  have hflush : (if s.rc ≠ [] then s.writeBuf s.rc s.rcLen none else some (s, 0)) =
      some ({ s with cn := s.cn.took s.rc.flatten }, 0) := by
    by_cases hnil : s.rc = []
    · have hsame : s.cn.took s.rc.flatten = s.cn := by
        rw [hnil, Socket.took, List.flatten_nil, List.append_nil]
      rw [if_neg (not_not.mpr hnil), hsame]
    · rw [if_pos hnil, writeBuf_rc hs (hrc.resolve_left hnil)]
  have hroom : (s.cn.took s.rc.flatten).room = none := hs.room
  have hneg : ¬0 < s.responseLeft := by
    rw [hs.left]
    decide
  unfold endRequest
  rw [hflush, Option.map_some]
  refine ⟨_, rfl, ?_⟩
  dsimp only
  rw [if_neg (fun h => h rfl), if_neg hneg]
  unfold endChunks
  rw [if_pos ⟨hs.chunked, hs.left⟩]
  dsimp only
  rw [Socket.writeFull_none hroom]
  dsimp only
  rw [Socket.took_took]
  rfl

/-! ## A response as a message -/

/-- A chunked response before its first part: the header section, which starts with `H`, is pending
or sent. -/
structure Start (s : KHttpResponse) : Prop extends s.Streaming where
  chunk0 : s.hasSendChunk0 = false
  header : s.rc = [] ∨ ∃ text, s.rc.flatten = 72 :: text

/-- Pending headers have bytes. -/
theorem Start.pending {s : KHttpResponse} (h : s.Start) : s.rc = [] ∨ s.rc.flatten ≠ [] := by
  rcases h.header with hnil | ⟨text, htext⟩
  · exact Or.inl hnil
  · right
    rw [htext]
    exact List.cons_ne_nil _ _

/-- The end of a message on the wire. -/
def tailWire (trailers : List (Bytes × Bytes)) : Bytes :=
  lastWire ++ (trailers.flatMap trailerWire ++ crlf)

/-- The headers are sent first where they are not pending when a trailer is the first that is
sent. -/
theorem respond_sends {s : KHttpResponse} (h : s.Start) {parts : List BodyPart}
    {trailers : List (Bytes × Bytes)} (hfirst : s.rc = [] ∨ parts ≠ [] ∨ trailers = []) :
    ∃ s', s.respond parts trailers = some s' ∧ s'.cn.sent =
      s.cn.sent ++ s.rc.flatten ++ (parts.flatMap partWire ++ tailWire trailers) := by
  have hparts : ∃ s1, s.writeParts parts = some s1 ∧ s1.Streaming ∧
      s1.hasSendChunk0 = false ∧ (s1.rc = [] ∨ s1.rc.flatten ≠ []) ∧
      (s1.rc = [] ∨ trailers = []) ∧ s1.cn.sent ++ s1.rc.flatten =
        s.cn.sent ++ s.rc.flatten ++ parts.flatMap partWire := by
    by_cases hnil : parts = []
    · subst hnil
      refine ⟨s, rfl, h.toStreaming, h.chunk0, h.pending, ?_, ?_⟩
      · exact hfirst.imp id fun h => h.resolve_left fun hne => hne rfl
      · rw [List.flatMap_nil, List.append_nil]
    · obtain ⟨s1, hrun, hsends⟩ := writeParts_sends h.toStreaming h.pending hnil
      refine ⟨s1, hrun, hsends.streaming h.toStreaming, hsends.chunk0.trans h.chunk0,
        Or.inl hsends.rc, Or.inl hsends.rc, ?_⟩
      rw [hsends.rc, hsends.cn, List.flatten_nil, List.append_nil]
      unfold Socket.took
      rw [← List.append_assoc]
  obtain ⟨s1, hrun, hs1, h01, hrc1, hfirst1, hsent1⟩ := hparts
  unfold respond tailWire
  rw [hrun, Option.bind_some, ← List.append_assoc, ← hsent1]
  by_cases hnil : trailers = []
  · subst hnil
    obtain ⟨s', hend, hcn⟩ := endRequest_sends hs1 hrc1
    refine ⟨s', hend, ?_⟩
    rw [hcn, h01]
    unfold Socket.took
    rw [List.append_assoc]
    rfl
  · have hrc : s1.rc = [] := hfirst1.resolve_right hnil
    rw [responseTrailers_first hs1 h01 hnil]
    obtain ⟨s', hend, hcn⟩ := endRequest_sends
      (s := { s1 with
        cn := s1.cn.took (lastWire ++ trailers.flatMap trailerWire)
        hasSendChunk0 := true }) ⟨hs1.chunked, hs1.left, hs1.room⟩ (Or.inl hrc)
    refine ⟨s', hend, ?_⟩
    rw [hcn]
    dsimp only
    rw [hrc, List.flatten_nil, List.append_nil, List.nil_append, if_pos rfl, Socket.took_took]
    unfold Socket.took
    rw [List.append_assoc]

/-- A chunk that is written. -/
def chunkOf (bytes : Bytes) (hne : bytes ≠ []) : MessageChunk where
  size := sizeLineOf bytes.length
  data := bytes
  data_ne := hne
  size_value := hexValue_sprintfX bytes.length

/-- A chunk that is written, on the wire. -/
theorem encode_chunkOf (bytes : Bytes) (hne : bytes ≠ []) :
    (chunkOf bytes hne).encode = chunkWire bytes := by
  unfold chunkWire MessageChunk.encode
  rw [chunkHeader_eq]
  rfl

/-- A trailer that is written. -/
def fieldOf (t : Bytes × Bytes) (h : IsField t.1 t.2) : FieldLine where
  name := t.1
  value := t.2
  before := [32]
  after := []
  isField := h
  before_ows := fun ch hch => by rw [List.mem_singleton.mp hch]; decide
  after_ows := nofun

/-- A trailer that is written, on the wire. -/
theorem encode_fieldOf (t : Bytes × Bytes) (h : IsField t.1 t.2) :
    (fieldOf t h).encode = trailerWire t := by
  unfold FieldLine.encode trailerWire
  show t.1 ++ 58 :: ([32] ++ t.2 ++ []) ++ crlf = _
  rw [List.append_nil, List.append_assoc t.1 (kglString ": ")]
  rfl

/-- A part that `write_all` writes. -/
def BodyPart.IsWrite : BodyPart → Prop
  | .file _ => False
  | _ => True

/-- A part that `write_all` writes is a chunk on the wire. -/
theorem partWire_write {part : BodyPart} (h : part.IsWrite) :
    partWire part = chunkWire part.bytes := by
  cases part with
  | str | buf => rfl
  | file => exact h.elim

/-- Parts with bytes and fields are a message on the wire. -/
theorem wire_message {parts : List BodyPart} (hparts : ∀ part ∈ parts, part.IsWrite)
    (hbytes : ∀ part ∈ parts, part.bytes ≠ []) {trailers : List (Bytes × Bytes)}
    (hfields : ∀ t ∈ trailers, IsField t.1 t.2) :
    ∃ m : ChunkedMessage, m.encode = parts.flatMap partWire ++ tailWire trailers ∧
      m.payload = parts.flatMap BodyPart.bytes ∧ m.fields = trailers := by
  have hfieldLines : ∃ lines : List FieldLine,
      lines.flatMap FieldLine.encode = trailers.flatMap trailerWire ∧
      lines.map (fun f => (f.name, f.value)) = trailers := by
    clear hparts hbytes
    induction trailers with
    | nil => exact ⟨[], rfl, rfl⟩
    | cons t trailers ih =>
      have hfield := hfields t List.mem_cons_self
      obtain ⟨lines, hwire, hsame⟩ := ih fun t' ht' => hfields t' (List.mem_cons_of_mem _ ht')
      refine ⟨fieldOf t hfield :: lines, ?_, ?_⟩
      · rw [List.flatMap_cons, List.flatMap_cons, hwire, encode_fieldOf]
      · rw [List.map_cons, hsame]
        rfl
  have hchunks : ∃ chunks : List MessageChunk,
      chunks.flatMap MessageChunk.encode = parts.flatMap partWire ∧
      chunks.flatMap MessageChunk.data = parts.flatMap BodyPart.bytes := by
    clear hfieldLines hfields
    induction parts with
    | nil => exact ⟨[], rfl, rfl⟩
    | cons part parts ih =>
      have hne := hbytes part List.mem_cons_self
      obtain ⟨chunks, hwire, hsame⟩ := ih
        (fun part' hpart' => hparts part' (List.mem_cons_of_mem _ hpart'))
        fun part' hpart' => hbytes part' (List.mem_cons_of_mem _ hpart')
      refine ⟨chunkOf part.bytes hne :: chunks, ?_, ?_⟩
      · rw [List.flatMap_cons, List.flatMap_cons, hwire, encode_chunkOf,
          partWire_write (hparts part List.mem_cons_self)]
      · rw [List.flatMap_cons, List.flatMap_cons, hsame]
        rfl
  obtain ⟨lines, hlines, hfields'⟩ := hfieldLines
  obtain ⟨chunks, hchunks, hpayload⟩ := hchunks
  refine ⟨⟨chunks, sizeLineOf 0, lines, hexValue_sprintfX 0⟩, ?_, hpayload, hfields'⟩
  unfold ChunkedMessage.encode tailWire lastWire
  rw [hchunks, hlines, chunkHeader_eq]

/-- A part without bytes, or of a file, leaves no message on the wire. -/
theorem wire_ne_message {parts : List BodyPart}
    (hbad : ∃ part ∈ parts, part.bytes = [] ∨ ¬part.IsWrite) (trailers : List (Bytes × Bytes))
    (m : ChunkedMessage) : parts.flatMap partWire ++ tailWire trailers ≠ m.encode := by
  induction parts generalizing m with
  | nil =>
    obtain ⟨part, hpart, -⟩ := hbad
    exact absurd hpart List.not_mem_nil
  | cons part parts ih =>
    intro h
    rw [List.flatMap_cons, List.append_assoc] at h
    have htail : parts.flatMap partWire ++ tailWire trailers ≠ [] := by
      refine List.append_ne_nil_of_right_ne_nil _ ?_
      exact List.append_ne_nil_of_right_ne_nil _
        (List.append_ne_nil_of_right_ne_nil _ (List.cons_ne_nil _ _))
    have hempty : ∀ rest : Bytes, chunkWire [] ++ rest = m.encode → rest = [] := by
      intro rest hrest
      have hwire : chunkWire [] ++ rest = (sizeLineOf 0).encode ++ (crlf ++ rest) := by
        unfold chunkWire
        rw [List.length_nil, chunkHeader_eq, List.nil_append, List.append_assoc]
      rw [hwire] at hrest
      exact ChunkedMessage.split_end (hexValue_sprintfX 0) hrest
    have hchunk : ∀ (bytes rest : Bytes), bytes ≠ [] → chunkWire bytes ++ rest = m.encode →
        ∃ m' : ChunkedMessage, rest = m'.encode := by
      intro bytes rest hne hrest
      rw [← encode_chunkOf bytes hne] at hrest
      have hcut : [chunkOf bytes hne].flatMap MessageChunk.encode ++ rest = m.encode := by
        rw [List.flatMap_singleton]
        exact hrest
      obtain ⟨m', hm', -⟩ := ChunkedMessage.split [chunkOf bytes hne] hcut
      exact ⟨m', hm'⟩
    by_cases hwrite : part.IsWrite
    · rw [partWire_write hwrite] at h
      by_cases hbytes : part.bytes = []
      · rw [hbytes] at h
        exact htail (hempty _ h)
      · obtain ⟨m', hm'⟩ := hchunk _ _ hbytes h
        obtain ⟨bad, hmem, hbad⟩ := hbad
        rcases List.mem_cons.mp hmem with rfl | hmem
        · exact hbad.elim hbytes fun hnot => hnot hwrite
        · exact ih ⟨bad, hmem, hbad⟩ m' hm'
    · cases part with
      | str | buf => exact hwrite trivial
      | file content =>
        rw [partWire, List.append_assoc] at h
        by_cases hcontent : content = []
        · subst hcontent
          exact List.cons_ne_nil _ _ (hempty _ h)
        · -- no size line starts with the null byte
          obtain ⟨m', hm'⟩ := hchunk _ _ hcontent h
          obtain ⟨ch, more, hhead, hhex⟩ := m'.head_encode
          rw [hhead] at hm'
          rw [← (List.cons_eq_cons.mp hm').1] at hhex
          exact absurd hhex (by decide)

/-- What is sent behind the header section is one message: its payload is what was written, and its
fields are the trailers. -/
def Decodes (s : KHttpResponse) (parts : List BodyPart) (trailers : List (Bytes × Bytes)) : Prop :=
  ∃ (s' : KHttpResponse) (m : ChunkedMessage), s.respond parts trailers = some s' ∧
    s'.cn.sent = s.cn.sent ++ s.rc.flatten ++ m.encode ∧
    m.payload = parts.flatMap BodyPart.bytes ∧ m.fields = trailers

/-- A trailer that is sent first stands in front of the header section. -/
theorem not_decodes_of_pending {s : KHttpResponse} (h : s.Start) (hrc : s.rc ≠ [])
    {trailers : List (Bytes × Bytes)} (hne : trailers ≠ []) : ¬s.Decodes [] trailers := by
  rintro ⟨s', m, hrun, hsent, -⟩
  have htrailers := responseTrailers_first h.toStreaming h.chunk0 hne
  unfold respond at hrun
  rw [writeParts, Option.bind_some, htrailers] at hrun
  obtain ⟨s2, hend, hcn⟩ := endRequest_sends
    (s := { s with
      cn := s.cn.took (lastWire ++ trailers.flatMap trailerWire)
      hasSendChunk0 := true }) ⟨h.chunked, h.left, h.room⟩ h.pending
  rw [hend] at hrun
  cases hrun
  obtain ⟨text, htext⟩ := h.header.resolve_left hrc
  rw [hcn, Socket.took_took] at hsent
  unfold Socket.took at hsent
  dsimp only at hsent
  rw [htext, List.append_assoc, List.append_assoc] at hsent
  have hhead : (48 : Byte) = 72 := (List.cons_eq_cons.mp (List.append_cancel_left hsent)).1
  exact absurd hhead (by decide)

/-- A chunked response with a header section `H` that is pending. -/
def pendingResponse : KHttpResponse :=
  ⟨⟨[], none⟩, -1, 0, [kglString "H"], true, false, false⟩

/-- The response with the pending header section is one before its first part. -/
theorem pendingResponse_start : pendingResponse.Start :=
  ⟨⟨rfl, rfl, rfl⟩, rfl, Or.inr ⟨[], rfl⟩⟩

/-- `sendfile` and `write_all` put the same bytes on the connection. -/
def SameWire (s : KHttpResponse) (content : Bytes) : Prop :=
  ∃ s1 s2 n1 n2, s.sendfile content = some (s1, n1) ∧ s.writeAll content = some (s2, n2) ∧
    s1.cn.sent = s2.cn.sent

/-- The line end that `sendfile` writes has a null byte more. -/
theorem not_sameWire {s : KHttpResponse} (h : s.Start) (content : Bytes) :
    ¬s.SameWire content := by
  rintro ⟨s1, s2, n1, n2, hfile, hwrite, hsent⟩
  obtain ⟨s1', hfile', hsends1⟩ := sendfile_sends h.toStreaming h.pending content
  obtain ⟨s2', hwrite', hsends2⟩ := writeAll_sends h.toStreaming content
  rw [hfile] at hfile'
  rw [hwrite] at hwrite'
  cases hfile'
  cases hwrite'
  rw [hsends1.cn, hsends2.cn] at hsent
  have hmore := List.append_cancel_left (List.append_cancel_left hsent)
  exact List.cons_ne_nil _ _ (List.append_right_eq_self.mp hmore)

/-- A body with a part of a file does not decode. -/
theorem not_decodes_of_file {s : KHttpResponse} (h : s.Start) {parts : List BodyPart}
    {content : Bytes} (hfile : .file content ∈ parts) (trailers : List (Bytes × Bytes)) :
    ¬s.Decodes parts trailers := by
  rintro ⟨s', m, hrun, hsent, -⟩
  have hfirst : s.rc = [] ∨ parts ≠ [] ∨ trailers = [] := Or.inr (Or.inl (List.ne_nil_of_mem hfile))
  obtain ⟨s2, hrun2, hsent2⟩ := respond_sends h hfirst
  rw [hrun] at hrun2
  cases hrun2
  rw [hsent2] at hsent
  exact wire_ne_message ⟨_, hfile, Or.inr id⟩ trailers m (List.append_cancel_left hsent)

/-- No part of a file is sent as `write_all` would send it, and no body with such a part decodes to
its parts. -/
theorem sendfile_never_agrees {s : KHttpResponse} (h : s.Start) (content : Bytes) :
    ¬s.SameWire content ∧ ∀ (parts : List BodyPart) (trailers : List (Bytes × Bytes)),
      .file content ∈ parts → ¬s.Decodes parts trailers :=
  ⟨not_sameWire h content, fun _ trailers hfile => not_decodes_of_file h hfile trailers⟩

/-- The result for a file of five bytes, alone and behind a buffer. -/
theorem helloFile_never_agrees : ¬pendingResponse.SameWire (kglString "hello") ∧
    ¬pendingResponse.Decodes [.str (kglString "a"), .file (kglString "hello")] [] :=
  ⟨(sendfile_never_agrees pendingResponse_start (kglString "hello")).1,
    (sendfile_never_agrees pendingResponse_start (kglString "hello")).2 _ []
      (List.mem_cons_of_mem _ List.mem_cons_self)⟩

/-- A file of five bytes is not sent as `write_all` would send it. -/
theorem helloFile_not_sameWire : ¬pendingResponse.SameWire (kglString "hello") :=
  not_sameWire pendingResponse_start (kglString "hello")

end KHttpResponse

end Khttpd
