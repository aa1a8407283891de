import Khttpd.Lib.FieldBlock
import Khttpd.Model.HeaderBlock
import Khttpd.Analysis.HeaderFrames

/-!
# A header block spells the fields that were added

`HeaderCall`s are what a program does to the header block of a stream. A peer that follows the
format reads from the bytes of the block, and from the frame that `create` makes of it, the fields
that were added: the status first, the others in their order.
-/

set_option autoImplicit false

namespace Khttpd

open FieldBlock

/-- A peer with the static table. -/
def peer (unhuff : Bytes → Option Bytes) (store : Field → List Field → List Field)
    (resize : ℕ → List Field → Option (List Field)) : Peer :=
  ⟨staticTable, unhuff, store, resize⟩

/-! ## Strings -/

/-- The octets behind a full prefix are read back. -/
theorem readIntTail_intTail {fuel value : ℕ} (h : value ≤ fuel) (rest : Bytes) :
    readIntTail (intTail fuel value ++ rest) = some (value, rest) := by
  have hlast : ∀ v, v < 128 → readIntTail (UInt8.ofNat v :: rest) = some (v, rest) := by
    intro v hv
    have hnat : (UInt8.ofNat v).toNat = v := by
      rw [UInt8.toNat_ofNat']
      omega
    rw [readIntTail_last (by omega), hnat]
  induction fuel generalizing value with
  | zero => exact hlast value (by omega)
  | succ fuel ih =>
    rw [intTail]
    split
    · have hnat : (UInt8.ofNat (value % 128 + 128)).toNat = value % 128 + 128 := by
        rw [UInt8.toNat_ofNat']
        omega
      have hrest : value / 128 ≤ fuel := by omega
      rw [List.cons_append, readIntTail_more (by omega) (ih hrest), hnat]
      congr 2
      omega
    · exact hlast value (by omega)

/-- The octets of `write_int` for the length of a string. -/
def lengthBytes (length : ℕ) : Bytes :=
  if length < 127 then [encodeRaw ||| UInt8.ofNat length]
  else (encodeRaw ||| UInt8.ofNat 127) :: intTail (length - 127) (length - 127)

/-- A length is read back, and its bit for the Huffman code is not set. -/
theorem readInt_lengthBytes (length : ℕ) (rest : Bytes) :
    ∃ b bytes, lengthBytes length ++ rest = b :: bytes ∧ b.toNat < 128 ∧
      readInt 7 (b :: bytes) = some (length, rest) := by
  have hraw : ∀ v, v < 128 → (encodeRaw ||| UInt8.ofNat v).toNat = v := by
    intro v hv
    rw [encodeRaw, UInt8.zero_or, UInt8.toNat_ofNat']
    omega
  unfold lengthBytes
  split
  · rename_i hshort
    have hnat := hraw length (by omega)
    refine ⟨_, rest, rfl, by omega, ?_⟩
    rw [readInt_short (by omega)]
    congr 2
    omega
  · have hnat := hraw 127 (by omega)
    refine ⟨encodeRaw ||| UInt8.ofNat 127, intTail (length - 127) (length - 127) ++ rest, rfl,
      by omega, ?_⟩
    have hsum : 2 ^ 7 - 1 + (length - 127) = length := by omega
    rw [readInt_long (by omega) (readIntTail_intTail le_rfl rest), hsum]

/-- A string as `write_int` and `write` put it. -/
def stringBytes (val : Bytes) : Bytes := lengthBytes val.length ++ val

theorem readString_stringBytes (p : Peer) (val rest : Bytes) :
    p.readString (stringBytes val ++ rest) = some (val, rest) := by
  obtain ⟨b, bytes, heq, hb, hint⟩ := readInt_lengthBytes val.length (val ++ rest)
  rw [stringBytes, List.append_assoc, heq]
  exact Peer.readString_raw hb hint

namespace KHttp2HeaderFrame

variable {f : KHttp2HeaderFrame}

/-- What a call puts behind the block; the block still has room for whole bytes. -/
structure Puts (f f' : KHttp2HeaderFrame) (bytes : Bytes) : Prop where
  block : f'.block = f.block ++ bytes
  fits : f'.LastFits

theorem puts_write (hf : f.LastFits) (str : Bytes) : Puts f (f.write str) str :=
  ⟨block_write hf str, lastFits_write hf str⟩

theorem Puts.write {f' : KHttp2HeaderFrame} {bytes : Bytes} (h : Puts f f' bytes) (str : Bytes) :
    Puts f (f'.write str) (bytes ++ str) where
  block := by rw [block_write h.fits, h.block, List.append_assoc]
  fits := lastFits_write h.fits str

theorem writeInt_eq (f : KHttp2HeaderFrame) (length : ℕ) :
    f.writeInt encodeRaw 127 length = f.write (lengthBytes length) := by
  rw [writeInt, lengthBytes]
  split <;> rfl

theorem Puts.writeString {f' : KHttp2HeaderFrame} {bytes : Bytes} (h : Puts f f' bytes)
    (val : Bytes) : Puts f (f'.writeString val) (bytes ++ stringBytes val) := by
  rw [KHttp2HeaderFrame.writeString, writeInt_eq, stringBytes, ← List.append_assoc]
  exact (h.write (lengthBytes val.length)).write val

/-- `insert` puts bytes in front of the block. -/
theorem insert_spec (hf : f.LastFits) (str : Bytes) :
    (f.insert str).block = str ++ f.block ∧ (f.insert str).LastFits := by
  unfold insert
  split
  · rename_i hempty
    refine ⟨?_, lastFits_write hf str⟩
    rw [block_write hf, block, hempty, List.flatten_nil, List.nil_append, List.append_nil]
  · rename_i hne
    refine ⟨List.flatten_cons, fun last hlast => hf last ?_⟩
    obtain ⟨chunk, chunks, hchunks⟩ := List.exists_cons_of_ne_nil hne
    rw [hchunks] at hlast ⊢
    exact hlast

end KHttp2HeaderFrame

/-! ## Fields -/

section Fields

variable {unhuff : Bytes → Option Bytes} {store : Field → List Field → List Field}
  {resize : ℕ → List Field → Option (List Field)}

/-- An entry of the static table. -/
theorem spells_indexed {i : ℕ} {f : Field} (h : staticTable[i]? = some f) (hi : i + 1 < 127) :
    (peer unhuff store resize).Spells [indexed (i + 1)] [f] := by
  have hb : (indexed (i + 1)).toNat = 128 + (i + 1) := by
    rw [indexed, UInt8.toNat_ofNat']
    omega
  exact Peer.spells_field fun dyn => ⟨dyn, Peer.readField_indexed hb hi h dyn⟩

/-- A value with the name of an entry of the static table. -/
theorem spells_incIndexed {i : ℕ} {name old : Bytes} (h : staticTable[i]? = some (name, old))
    (hi : i + 1 < 63) (val : Bytes) :
    (peer unhuff store resize).Spells ([incIndexed (i + 1)] ++ stringBytes val) [(name, val)] := by
  have hb : (incIndexed (i + 1)).toNat = 64 + (i + 1) := by
    rw [incIndexed, UInt8.toNat_ofNat']
    omega
  exact Peer.spells_field fun dyn => ⟨_, fun rest =>
    Peer.readField_stored hb hi h (readString_stringBytes _ val rest) dyn⟩

/-- A name and a value. -/
theorem spells_named (name val : Bytes) :
    (peer unhuff store resize).Spells (0 :: (stringBytes name ++ stringBytes val))
      [(name, val)] := by
  refine Peer.spells_field fun dyn => ⟨dyn, fun rest => ?_⟩
  rw [List.append_assoc]
  exact Peer.readField_named (readString_stringBytes _ name _) (readString_stringBytes _ val rest)
    dyn

end Fields

/-- What `kgl_find_http2_static_table` finds is an entry of that name. -/
theorem findHttp2StaticTable_spec {name : Bytes} (h : findHttp2StaticTable name ≠ 0) :
    ∃ i e, findHttp2StaticTable name = i + 1 ∧ staticTable[i]? = some e ∧
      caseString name = caseString e.1 := by
  unfold findHttp2StaticTable at h ⊢
  split at h
  · rename_i i hfind
    obtain ⟨hi, hsame, -⟩ := List.findIdx?_eq_some_iff_getElem.mp hfind
    exact ⟨i, _, rfl, List.getElem?_eq_getElem hi, beq_iff_eq.mp hsame⟩
  · exact absurd rfl h

/-- Names in the static table are in lower case. -/
theorem caseString_staticTable : ∀ e ∈ staticTable, caseString e.1 = e.1 := by decide +kernel

theorem caseString_lowCase (name : KglHeaderType) : caseString name.lowCase = name.lowCase := by
  cases name <;> decide +kernel

/-- The entry of a known name in the static table. -/
theorem staticTable_http2Index {name : KglHeaderType} (h : name.http2Index ≠ 0) :
    ∃ i old, name.http2Index = i + 1 ∧ i + 1 < 63 ∧
      staticTable[i]? = some (name.lowCase, old) := by
  have hfind : name.http2Index = findHttp2StaticTable name.lowCase := by
    cases name with
    | unknow => exact absurd rfl h
    | _ => rfl
  rw [hfind] at h ⊢
  obtain ⟨i, ⟨entry, old⟩, hi, hentry, hsame⟩ := findHttp2StaticTable_spec h
  rw [caseString_lowCase, caseString_staticTable _ (List.mem_of_getElem? hentry)] at hsame
  have hlt : i < 61 := (List.getElem?_eq_some_iff.mp hentry).1
  exact ⟨i, old, hi, by omega, hsame ▸ hentry⟩

/-- The position of a known status in the static table. -/
theorem staticTable_statusIndex (code : ℕ) (h : KHttp2HeaderFrame.statusIndex code ≠ 0) :
    ∃ i, KHttp2HeaderFrame.statusIndex code = i + 1 ∧ i + 1 < 127 ∧
      staticTable[i]? = some (kglString ":status", (statusDigits code).take 3) := by
  unfold KHttp2HeaderFrame.statusIndex at h ⊢
  split at h
  · exact ⟨7, rfl, by decide, by decide +kernel⟩
  · exact ⟨8, rfl, by decide, by decide +kernel⟩
  · exact ⟨9, rfl, by decide, by decide +kernel⟩
  · exact ⟨10, rfl, by decide, by decide +kernel⟩
  · exact ⟨11, rfl, by decide, by decide +kernel⟩
  · exact ⟨12, rfl, by decide, by decide +kernel⟩
  · exact ⟨13, rfl, by decide, by decide +kernel⟩
  · exact absurd rfl h

/-- A status is printed with three digits at least. -/
theorem length_statusDigits (code : ℕ) : ((statusDigits code).take 3).length = 3 := by
  have hlen : 3 ≤ (statusDigits code).length := by
    simp only [statusDigits, List.length_append, List.length_replicate]
    omega
  rw [List.length_take]
  omega

/-- A name that `strcasecmp` finds equal to a text of its own length. -/
theorem map_toLower_of_caseString {name text : Bytes} (h : caseString name = text)
    (hlength : name.length = text.length) : name.map toLower = text := by
  have hwhole : name.takeWhile (· ≠ 0) = name := by
    refine (List.takeWhile_prefix _).eq_of_length ?_
    rw [hlength, ← h, caseString, List.length_map]
  rw [← h, caseString, hwhole]

/-! ## Calls -/

/-- What is done with the header block of a stream. -/
inductive HeaderCall
  | addMethod (meth : ℕ)
  | addStatus (statusCode : ℕ)
  | addKnownHeader (name : KglHeaderType) (val : Bytes)
  | addHeader (name val : Bytes)
  deriving DecidableEq, Repr

namespace HeaderCall

/-- What a call does. -/
def act (f : KHttp2HeaderFrame) : HeaderCall → KHttp2HeaderFrame
  | addMethod meth => f.addMethod meth
  | addStatus statusCode => f.addStatus statusCode
  | addKnownHeader name val => f.addKnownHeader name val
  | addHeader name val => f.addHeader name val

/-- The fields after a call: a status goes to the front, names are in lower case, and an upgrade to
HTTP/2 is not told. -/
def tell (fs : List Field) : HeaderCall → List Field
  | addMethod meth => fs ++ [(kglString ":method", getMethod meth)]
  | addStatus statusCode => (kglString ":status", (statusDigits statusCode).take 3) :: fs
  | addKnownHeader name val => fs ++ [(name.lowCase, val)]
  | addHeader name val =>
    if KHttp2HeaderFrame.isUpgradeH2 name val then fs else fs ++ [(name.map toLower, val)]

end HeaderCall

open KHttp2HeaderFrame

/-- A block that spells fields to a peer. -/
structure Tells (p : Peer) (f : KHttp2HeaderFrame) (fs : List Field) : Prop where
  fits : f.LastFits
  spells : p.Spells f.block fs

section Calls

variable {unhuff : Bytes → Option Bytes} {store : Field → List Field → List Field}
  {resize : ℕ → List Field → Option (List Field)}

theorem tells_init (p : Peer) : Tells p .init [] := ⟨lastFits_init, Peer.spells_nil⟩

/-- Bytes that spell a field are put behind the block. -/
theorem Tells.puts {p : Peer} {f f' : KHttp2HeaderFrame} {fs : List Field} {bytes : Bytes}
    {field : Field} (h : Tells p f fs) (hputs : Puts f f' bytes)
    (hspells : p.Spells bytes [field]) : Tells p f' (fs ++ [field]) where
  fits := hputs.fits
  spells := hputs.block ▸ h.spells.append hspells

/-- Bytes that spell a field are put in front of the block. -/
theorem Tells.insert {p : Peer} {f : KHttp2HeaderFrame} {fs : List Field} {bytes : Bytes}
    {field : Field} (h : Tells p f fs) (hspells : p.Spells bytes [field]) :
    Tells p (f.insert bytes) (field :: fs) := by
  obtain ⟨hblock, hfits⟩ := insert_spec h.fits bytes
  exact ⟨hfits, hblock ▸ hspells.append h.spells⟩

variable {f : KHttp2HeaderFrame} {fs : List Field}

theorem Tells.addMethod (h : Tells (peer unhuff store resize) f fs) (meth : ℕ) :
    Tells (peer unhuff store resize) (f.addMethod meth)
      (fs ++ [(kglString ":method", getMethod meth)]) := by
  unfold KHttp2HeaderFrame.addMethod
  split
  · rename_i hget
    subst hget
    exact h.puts (puts_write h.fits _) (spells_indexed (i := 1) (by decide +kernel) (by decide))
  · split
    · rename_i hpost
      subst hpost
      exact h.puts (puts_write h.fits _) (spells_indexed (i := 2) (by decide +kernel) (by decide))
    · have hentry : staticTable[1]? = some (kglString ":method", kglString "GET") := by
        decide +kernel
      exact h.puts ((puts_write h.fits _).writeString _)
        (spells_incIndexed hentry (by decide) (getMethod meth))

theorem Tells.addStatus (h : Tells (peer unhuff store resize) f fs) (statusCode : ℕ) :
    Tells (peer unhuff store resize) (f.addStatus statusCode)
      ((kglString ":status", (statusDigits statusCode).take 3) :: fs) := by
  unfold KHttp2HeaderFrame.addStatus
  split
  · rename_i hknown
    obtain ⟨i, hi, hlt, hentry⟩ := staticTable_statusIndex statusCode hknown
    rw [hi]
    exact h.insert (spells_indexed hentry hlt)
  · -- the length of three digits is one octet
    have hbytes : incIndexed 8 :: (encodeRaw ||| 3) :: (statusDigits statusCode).take 3 =
        [incIndexed 8] ++ stringBytes ((statusDigits statusCode).take 3) := by
      rw [stringBytes, length_statusDigits]
      rfl
    have hentry : staticTable[7]? = some (kglString ":status", kglString "200") := by
      decide +kernel
    rw [hbytes]
    exact h.insert (spells_incIndexed hentry (by decide) _)

theorem Tells.addHeaderCookie (h : Tells (peer unhuff store resize) f fs) (val : Bytes) :
    Tells (peer unhuff store resize) (f.addHeaderCookie val)
      (fs ++ [(kglString "cookie", val)]) := by
  have hentry : staticTable[31]? = some (kglString "cookie", kglString "") := by
    decide +kernel
  exact h.puts ((puts_write h.fits _).writeString val)
    (spells_incIndexed hentry (by decide) val)

theorem Tells.addKnownHeader (h : Tells (peer unhuff store resize) f fs) (name : KglHeaderType)
    (val : Bytes) :
    Tells (peer unhuff store resize) (f.addKnownHeader name val)
      (fs ++ [(name.lowCase, val)]) := by
  unfold KHttp2HeaderFrame.addKnownHeader
  split
  · rename_i hcookie
    subst hcookie
    exact h.addHeaderCookie val
  · split
    · have hputs := ((puts_write h.fits [0]).writeString name.lowCase).writeString val
      rw [List.append_assoc] at hputs
      exact h.puts hputs (spells_named name.lowCase val)
    · rename_i hindex
      obtain ⟨i, old, hi, hlt, hentry⟩ := staticTable_http2Index hindex
      rw [hi]
      exact h.puts ((puts_write h.fits _).writeString val) (spells_incIndexed hentry hlt val)

theorem Tells.addHeader (h : Tells (peer unhuff store resize) f fs) (name val : Bytes) :
    Tells (peer unhuff store resize) (f.addHeader name val)
      (if isUpgradeH2 name val then fs else fs ++ [(name.map toLower, val)]) := by
  unfold KHttp2HeaderFrame.addHeader
  split
  · rename_i hcookie
    rw [Bool.and_eq_true, decide_eq_true_eq, beq_iff_eq] at hcookie
    have hname := map_toLower_of_caseString hcookie.2 hcookie.1
    have hplain : isUpgradeH2 name val = false := by
      rw [isUpgradeH2, hcookie.1]
      rfl
    rw [hplain, hname]
    exact h.addHeaderCookie val
  · split
    · exact h
    · rw [writeInt_eq, writeLowerString]
      have hputs := (((puts_write h.fits [0]).write (lengthBytes name.length)).write
        (name.map toLower)).writeString val
      have hname : stringBytes (name.map toLower) =
          lengthBytes name.length ++ name.map toLower := by
        rw [stringBytes, List.length_map]
      rw [List.append_assoc [0], ← hname, List.append_assoc] at hputs
      exact h.puts hputs (spells_named (name.map toLower) val)

/-- A call. -/
theorem Tells.act (h : Tells (peer unhuff store resize) f fs) (c : HeaderCall) :
    Tells (peer unhuff store resize) (c.act f) (c.tell fs) := by
  cases c with
  | addMethod meth => exact h.addMethod meth
  | addStatus statusCode => exact h.addStatus statusCode
  | addKnownHeader name val => exact h.addKnownHeader name val
  | addHeader name val => exact h.addHeader name val

/-- Calls. -/
theorem Tells.calls (h : Tells (peer unhuff store resize) f fs) (cs : List HeaderCall) :
    Tells (peer unhuff store resize) (cs.foldl HeaderCall.act f)
      (cs.foldl HeaderCall.tell fs) := by
  induction cs generalizing f fs with
  | nil => exact h
  | cons c cs ih => exact ih (h.act c)

end Calls

/-- Whatever fields are added, in whatever order: a peer reads them from the block with any dynamic
table, and from the frames of `create` where the block fits into one. -/
theorem headerCalls_decode (unhuff : Bytes → Option Bytes)
    (store : Field → List Field → List Field) (resize : ℕ → List Field → Option (List Field))
    (dyn : List Field) (cs : List HeaderCall) :
    ((peer unhuff store resize).decode dyn (cs.foldl HeaderCall.act .init).block).map Prod.fst =
        some (cs.foldl HeaderCall.tell []) ∧
      ∀ (junk : ℕ → Http2FrameHeader) (streamId : ℕ) (noBody : Bool) (maxFrameSize : ℕ),
        streamId < 2 ^ 31 → (cs.foldl HeaderCall.act .init).block.length ≤ maxFrameSize →
        (cs.foldl HeaderCall.act .init).block.length < 2 ^ 24 →
        ∃ frames, Framing.parseAll (chainBytes ((cs.foldl HeaderCall.act .init).create junk
            streamId noBody maxFrameSize)) = some frames ∧
          ((peer unhuff store resize).decode dyn (frames.flatMap Framing.Frame.payload)).map
            Prod.fst = some (cs.foldl HeaderCall.tell []) := by
  have hdecode := ((tells_init (peer unhuff store resize)).calls cs).spells.decode dyn
  refine ⟨hdecode, fun junk streamId noBody maxFrameSize hsid hfits hlength => ?_⟩
  obtain ⟨frames, hparse, hgroup⟩ :=
    carriesBlock_of_fits junk (cs.foldl HeaderCall.act .init) noBody hsid hfits hlength
  refine ⟨frames, hparse, ?_⟩
  rw [hgroup.payloads]
  exact hdecode

/-- The calls for a response. -/
def responseCalls : List HeaderCall :=
  [.addKnownHeader .server (kglString "khttpd"), .addHeader (kglString "Upgrade") (kglString "h2c"),
    .addHeader (kglString "X-Id") (kglString "7"), .addStatus 418,
    .addHeader (kglString "Cookie") (kglString "a=b")]

/-- The result at a response. -/
theorem headerCalls_decode_response :
    (responseCalls.foldl HeaderCall.tell [] =
      [(kglString ":status", kglString "418"), (kglString "server", kglString "khttpd"),
        (kglString "x-id", kglString "7"), (kglString "cookie", kglString "a=b")]) ∧
      ∃ frames, Framing.parseAll (chainBytes ((responseCalls.foldl HeaderCall.act .init).create
          (fun _ => .zero) 1 true 16384)) = some frames ∧
        ((peer (fun _ => none) (· :: ·) fun _ dyn => some dyn).decode []
          (frames.flatMap Framing.Frame.payload)).map Prod.fst =
            some (responseCalls.foldl HeaderCall.tell []) :=
  ⟨by decide +kernel, (headerCalls_decode (fun _ => none) (· :: ·) (fun _ dyn => some dyn) []
    responseCalls).2 (fun _ => .zero) 1 true 16384 (by decide) (by decide +kernel)
      (by decide +kernel)⟩

end Khttpd
