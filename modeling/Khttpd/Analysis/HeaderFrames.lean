import Mathlib.Order.Nat
import Khttpd.Lib.Framing
import Khttpd.Model.WriteBuffer

/-!
# Cutting a header block into frames

`KHttp2HeaderFrame::create` against the framing of HTTP/2. The loop writes a correct HEADERS
frame as long as the block fits into one frame; the branch for a CONTINUATION clears the
memory of the first header instead of the new one, so a longer block never parses.
-/

set_option autoImplicit false

namespace Khttpd

namespace KHttp2HeaderFrame

/-! ## The bytes of a block -/

/-- The final chunk has room for a whole number of bytes: `write` never leaves more than a chunk
in it. -/
def LastFits (f : KHttp2HeaderFrame) : Prop :=
  ∀ last ∈ f.chunks.getLast?, last.length ≤ headerFrameChunkSize

/-- A new block has no final chunk. -/
theorem lastFits_init : init.LastFits := by
  intro last h
  cases h

/-- One round of `write` moves bytes from the string to the end of the block. -/
theorem block_allocBuffer (f : KHttp2HeaderFrame) (str : Bytes) :
    (f.allocBuffer str).1.block ++ (f.allocBuffer str).2 = f.block ++ str := by
  unfold allocBuffer
  cases hlast : f.chunks.getLast? with
  | none =>
    have hnil : f.chunks = [] := List.getLast?_eq_none_iff.mp hlast
    simp [block, hnil]
  | some last =>
    obtain ⟨front, hfront⟩ := List.getLast?_eq_some_iff.mp hlast
    by_cases hfull : last.length = headerFrameChunkSize
    · simp [block, hfull]
    · simp [block, hfull, hfront]

/-- One round of `write` keeps the final chunk within its size. -/
theorem lastFits_allocBuffer {f : KHttp2HeaderFrame} (hf : f.LastFits) (str : Bytes) :
    (f.allocBuffer str).1.LastFits := by
  unfold allocBuffer
  cases hlast : f.chunks.getLast? with
  | none => simp [LastFits]
  | some last =>
    have hlen := hf last hlast
    by_cases hfull : last.length = headerFrameChunkSize
    · simp [LastFits, hfull]
    · simp only [if_neg hfull, LastFits, List.getLast?_append, List.getLast?_singleton,
        Option.some_or, Option.mem_def, Option.some.injEq, forall_eq', List.length_append,
        List.length_take]
      omega

/-- One round of `write` takes at least one byte. -/
theorem length_allocBuffer {f : KHttp2HeaderFrame} (hf : f.LastFits) (c : Byte) (str : Bytes) :
    (f.allocBuffer (c :: str)).2.length ≤ str.length := by
  unfold allocBuffer
  cases hlast : f.chunks.getLast? with
  | none => simp [headerFrameChunkSize]
  | some last =>
    have hlen := hf last hlast
    by_cases hfull : last.length = headerFrameChunkSize
    · simp [hfull, headerFrameChunkSize]
    · simp only [if_neg hfull, List.length_drop, List.length_cons]
      omega

/-- The loop of `write` puts the whole string behind the block. -/
theorem block_writeLoop {fuel : ℕ} {f : KHttp2HeaderFrame} (hf : f.LastFits) {str : Bytes}
    (hfuel : str.length ≤ fuel) :
    (writeLoop fuel f str).block = f.block ++ str ∧ (writeLoop fuel f str).LastFits := by
  induction fuel generalizing f str with
  | zero =>
    obtain rfl : str = [] := List.length_eq_zero_iff.mp (Nat.le_zero.mp hfuel)
    exact ⟨by simp [writeLoop], hf⟩
  | succ fuel ih =>
    cases str with
    | nil => exact ⟨by simp [writeLoop], hf⟩
    | cons c str =>
      have hshort : (f.allocBuffer (c :: str)).2.length ≤ fuel :=
        (length_allocBuffer hf c str).trans (Nat.le_of_succ_le_succ hfuel)
      obtain ⟨hblock, hfits⟩ := ih (lastFits_allocBuffer hf (c :: str)) hshort
      exact ⟨by simp only [writeLoop, hblock, block_allocBuffer], hfits⟩

/-- `write` appends to the block. -/
theorem block_write {f : KHttp2HeaderFrame} (hf : f.LastFits) (str : Bytes) :
    (f.write str).block = f.block ++ str :=
  (block_writeLoop hf le_rfl).1

/-- `write` keeps the final chunk within its size. -/
theorem lastFits_write {f : KHttp2HeaderFrame} (hf : f.LastFits) (str : Bytes) :
    (f.write str).LastFits :=
  (block_writeLoop hf le_rfl).2

end KHttp2HeaderFrame

/-! ## The loop of `create` -/

namespace CreateState

/-- Chunks that fit behind what the frame holds are only linked in. -/
theorem foldl_add_of_fits {streamId maxFrameSize : ℕ} (chunks : List Bytes) (c : CreateState)
    (hfits : c.frameSize + chunks.flatten.length ≤ maxFrameSize) :
    chunks.foldl (add streamId maxFrameSize) c =
      { c with
        frameSize := c.frameSize + chunks.flatten.length
        chain := c.chain ++ chunks.map .inr } := by
  induction chunks generalizing c with
  | nil => simp
  | cons chunk chunks ih =>
    simp only [List.flatten_cons, List.length_append] at hfits ⊢
    have hone : ¬c.frameSize + chunk.length > maxFrameSize := by omega
    rw [List.foldl_cons]
    have hadd : add streamId maxFrameSize c chunk =
        { c with frameSize := c.frameSize + chunk.length, chain := c.chain ++ [.inr chunk] } := by
      simp only [add, if_neg hone]
    rw [hadd, ih]
    · simp [Nat.add_assoc]
    · simp only
      omega

/-- The memory of the first header was cleared, and the loop has gone on to another header. -/
structure Cleared (c : CreateState) : Prop where
  cell : c.cells 0 = .zero
  current : c.h ≠ 0
  first : c.chain.head? = some (.inl 0)

/-- Closing the current frame does not touch a cleared first header. -/
theorem Cleared.closeFrame {c : CreateState} (hc : c.Cleared) (streamId : ℕ) :
    (c.closeFrame streamId).Cleared where
  cell := by
    simp only [CreateState.closeFrame, Function.update_of_ne hc.current.symm]
    exact hc.cell
  current := hc.current
  first := hc.first

/-- A chunk that does not fit clears the first header. -/
theorem cleared_add_of_overflow {streamId maxFrameSize : ℕ} {c : CreateState} {chunk : Bytes}
    (hfirst : c.chain.head? = some (.inl 0)) (hover : c.frameSize + chunk.length > maxFrameSize) :
    (add streamId maxFrameSize c chunk).Cleared := by
  obtain ⟨chain, hchain⟩ := List.head?_eq_some_iff.mp hfirst
  simp only [add, if_pos hover, closeFrame]
  exact ⟨by simp, by simp, by simp [hchain]⟩

/-- Every later chunk leaves the first header cleared. -/
theorem Cleared.add {streamId maxFrameSize : ℕ} {c : CreateState} (hc : c.Cleared)
    (chunk : Bytes) : (CreateState.add streamId maxFrameSize c chunk).Cleared := by
  by_cases hover : c.frameSize + chunk.length > maxFrameSize
  · exact cleared_add_of_overflow hc.first hover
  · obtain ⟨chain, hchain⟩ := List.head?_eq_some_iff.mp hc.first
    simp only [CreateState.add, if_neg hover]
    exact ⟨hc.cell, hc.current, by simp [hchain]⟩

/-- Once cleared, the first header stays so. -/
theorem Cleared.foldl_add {streamId maxFrameSize : ℕ} (chunks : List Bytes) {c : CreateState}
    (hc : c.Cleared) : (chunks.foldl (CreateState.add streamId maxFrameSize) c).Cleared := by
  induction chunks generalizing c with
  | nil => exact hc
  | cons chunk chunks ih => exact ih (hc.add chunk)

/-- More bytes than a frame may hold clear the first header at some chunk. -/
theorem cleared_foldl_add {streamId maxFrameSize : ℕ} (chunks : List Bytes) {c : CreateState}
    (hfirst : c.chain.head? = some (.inl 0)) (hsize : c.frameSize ≤ maxFrameSize)
    (hover : maxFrameSize < c.frameSize + chunks.flatten.length) :
    (chunks.foldl (add streamId maxFrameSize) c).Cleared := by
  induction chunks generalizing c with
  | nil =>
    simp only [List.flatten_nil, List.length_nil] at hover
    omega
  | cons chunk chunks ih =>
    rw [List.foldl_cons]
    by_cases hone : c.frameSize + chunk.length > maxFrameSize
    · exact (cleared_add_of_overflow hfirst hone).foldl_add chunks
    · have hadd : add streamId maxFrameSize c chunk =
          { c with frameSize := c.frameSize + chunk.length, chain := c.chain ++ [.inr chunk] } := by
        simp only [add, if_neg hone]
      obtain ⟨chain, hchain⟩ := List.head?_eq_some_iff.mp hfirst
      rw [hadd]
      refine ih ?_ ?_ ?_
      · simp [hchain]
      · simp only
        omega
      · simp only [List.flatten_cons, List.length_append] at hover
        simp only
        omega

end CreateState

/-! ## The bytes of the chain -/

/-- The bytes `bytes` are frames that carry `block` on a stream, as `create` should make them. -/
def CarriesBlock (bytes : Bytes) (streamId : ℕ) (noBody : Bool) (maxFrameSize : ℕ)
    (block : Bytes) : Prop :=
  ∃ fs, Framing.parseAll bytes = some fs ∧
    Framing.HeaderGroup streamId noBody maxFrameSize block fs

/-- The header that `create` writes when the block fits. -/
def singleHeader (streamId : ℕ) (noBody : Bool) (length : ℕ) : Http2FrameHeader where
  lengthType := (length * 2 ^ 8 + headersFrame) % 2 ^ 32
  flags := (if noBody then endStreamFlag else 0) ||| endHeadersFlag
  streamId := streamId

/-- A block that fits becomes one header and the block. -/
theorem chainBytes_create_of_fits (junk : ℕ → Http2FrameHeader) (f : KHttp2HeaderFrame)
    (streamId : ℕ) (noBody : Bool) {maxFrameSize : ℕ} (hfits : f.block.length ≤ maxFrameSize) :
    chainBytes (f.create junk streamId noBody maxFrameSize) =
      (singleHeader streamId noBody f.block.length).bytes ++ f.block := by
  have hblock : f.chunks.flatten.length = f.block.length := rfl
  have hchunks : ∀ chunks : List Bytes,
      (chunks.map Http2Buff.ofBytes).flatMap Http2Buff.data = chunks.flatten := by
    intro chunks
    induction chunks with
    | nil => rfl
    | cons chunk chunks ih => simp [ih, Http2Buff.ofBytes]
  simp only [KHttp2HeaderFrame.create]
  rw [CreateState.foldl_add_of_fits f.chunks _ (by simpa [hblock] using hfits)]
  simp only [CreateState.closeFrame, Nat.zero_add, Function.update_self, hblock, chainBytes,
    List.cons_append, List.nil_append, List.map_cons, List.map_map, List.flatMap_cons]
  congr 1
  exact hchunks f.chunks

/-- A block that does not fit leaves nine zero bytes in front. -/
theorem chainBytes_create_of_overflow (junk : ℕ → Http2FrameHeader) (f : KHttp2HeaderFrame)
    (streamId : ℕ) (noBody : Bool) {maxFrameSize : ℕ} (hover : maxFrameSize < f.block.length) :
    ∃ rest, chainBytes (f.create junk streamId noBody maxFrameSize) =
      Http2FrameHeader.zero.bytes ++ rest := by
  simp only [KHttp2HeaderFrame.create]
  generalize hc : f.chunks.foldl _ _ = c
  have hcleared : (c.closeFrame streamId).Cleared := by
    rw [← hc]
    exact (CreateState.cleared_foldl_add f.chunks rfl (Nat.zero_le _)
      (by simpa [KHttp2HeaderFrame.block] using hover)).closeFrame streamId
  obtain ⟨chain, hchain⟩ := List.head?_eq_some_iff.mp hcleared.first
  simp only [hchain, chainBytes, List.map_cons, List.flatMap_cons,
    Function.update_of_ne hcleared.current.symm, hcleared.cell]
  exact ⟨_, rfl⟩

/-- The header of a short block is the header of a frame. -/
theorem singleHeader_bytes {streamId length : ℕ} (noBody : Bool) (hlength : length < 2 ^ 24) :
    (singleHeader streamId noBody length).bytes =
      Framing.be32 (length * 2 ^ 8 + Framing.headersType) ++
        ((if noBody then Framing.endStream else 0) ||| Framing.endHeaders) ::
          Framing.be32 streamId := by
  have hmod : (length * 2 ^ 8 + headersFrame) % 2 ^ 32 = length * 2 ^ 8 + 1 := by
    simp only [headersFrame]
    omega
  simp only [singleHeader, Http2FrameHeader.bytes, hmod]
  rfl

/-- A block that fits a frame and its length field is carried. -/
theorem carriesBlock_of_fits (junk : ℕ → Http2FrameHeader) (f : KHttp2HeaderFrame)
    {streamId : ℕ} (noBody : Bool) {maxFrameSize : ℕ} (hsid : streamId < 2 ^ 31)
    (hfits : f.block.length ≤ maxFrameSize) (hlength : f.block.length < 2 ^ 24) :
    CarriesBlock (chainBytes (f.create junk streamId noBody maxFrameSize)) streamId noBody
      maxFrameSize f.block := by
  have hframe : chainBytes (f.create junk streamId noBody maxFrameSize) =
      (⟨Framing.headersType, (if noBody then Framing.endStream else 0) ||| Framing.endHeaders,
        streamId, f.block⟩ : Framing.Frame).encode := by
    rw [chainBytes_create_of_fits junk f streamId noBody hfits, singleHeader_bytes noBody hlength,
      Framing.Frame.encode]
  have htype : Framing.headersType < 2 ^ 8 := by decide
  rw [CarriesBlock, hframe]
  exact ⟨_, Framing.parseAll_encode _ ⟨hlength, htype, hsid⟩,
    Framing.headerGroup_singleton hfits⟩

/-- A block that does not fit into one frame is not carried: the bytes begin with the header of an
empty DATA frame. -/
theorem not_carriesBlock_of_overflow (junk : ℕ → Http2FrameHeader) (f : KHttp2HeaderFrame)
    (streamId : ℕ) (noBody : Bool) {maxFrameSize : ℕ} (hover : maxFrameSize < f.block.length) :
    ¬CarriesBlock (chainBytes (f.create junk streamId noBody maxFrameSize)) streamId noBody
      maxFrameSize f.block := by
  rintro ⟨fs, hparse, hgroup⟩
  obtain ⟨rest, hbytes⟩ := chainBytes_create_of_overflow junk f streamId noBody hover
  cases fs with
  | nil => exact hgroup.nonempty rfl
  | cons frame fs =>
    rw [hbytes] at hparse
    obtain ⟨tail, hone⟩ := Framing.head_of_parseAll hparse
    have hdata : Framing.parseOne (Http2FrameHeader.zero.bytes ++ rest) =
        some (⟨0, 0, 0, []⟩, rest) :=
      Framing.parseOne_encode ⟨0, 0, 0, []⟩ ⟨by decide, by decide, by decide⟩ rest
    have htype := hgroup.types 0 (by simp)
    rw [hdata, Option.some.injEq, Prod.mk.injEq] at hone
    rw [List.getElem_cons_zero, ← hone.1] at htype
    exact absurd htype (by decide)

/-- A block whose length does not fit the length field of a frame is not carried: it would have to
be one frame, and no frame is that long. -/
theorem not_carriesBlock_of_long (junk : ℕ → Http2FrameHeader) (f : KHttp2HeaderFrame)
    (streamId : ℕ) (noBody : Bool) {maxFrameSize : ℕ} (hfits : f.block.length ≤ maxFrameSize)
    (hlong : 2 ^ 24 ≤ f.block.length) :
    ¬CarriesBlock (chainBytes (f.create junk streamId noBody maxFrameSize)) streamId noBody
      maxFrameSize f.block := by
  rintro ⟨fs, hparse, hgroup⟩
  rw [chainBytes_create_of_fits junk f streamId noBody hfits] at hparse
  have htotal := Framing.length_of_parseLoop hparse
  rw [hgroup.payloads, List.length_append] at htotal
  have hheader : (singleHeader streamId noBody f.block.length).bytes.length = 9 := rfl
  have hlen : fs.length = 1 := by omega
  obtain ⟨frame, rfl⟩ := List.length_eq_one_iff.mp hlen
  obtain ⟨tail, hone⟩ := Framing.head_of_parseAll hparse
  have hpayload : frame.payload = f.block := by simpa using hgroup.payloads
  have hbound := Framing.length_payload_of_parseOne hone
  rw [hpayload] at hbound
  omega

end Khttpd
