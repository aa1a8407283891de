import Khttpd.Model.HtmlCoding

/-!
# Coding HTML entities

`htmlDecode` writes behind its reads, so what it leaves at the start of its buffer is the decoded
string. An encoded string has a `&` only where an entity stands, and is decoded piece by piece. Its
buffer has room for it where the size of that buffer is an `int`.
-/

set_option autoImplicit false

namespace Khttpd

/-! ## Decoding in place -/

theorem cstr_drop {p : Bytes} {k : ℕ} (hk : k ≤ (cstr p).length) :
    cstr (p.drop k) = (cstr p).drop k := by
  induction k generalizing p with
  | zero => rfl
  | succ k ih =>
    cases p with
    | nil => rfl
    | cons c p =>
      by_cases hc : c = 0
      · simp [cstr, hc] at hk
      · have hcons : cstr (c :: p) = c :: cstr p := List.takeWhile_cons_of_pos (by simpa using hc)
        rw [hcons, List.length_cons] at hk
        rw [hcons, List.drop_succ_cons, List.drop_succ_cons, ih (by omega)]

/-- A byte is written behind the reads. -/
theorem set_behind (buf : Bytes) {dst src : ℕ} (hdst : dst < src) (b : Byte) (hlt : dst < buf.length) :
    (buf.set dst b).drop src = buf.drop src ∧
      (buf.set dst b).take (dst + 1) = buf.take dst ++ [b] := by
  refine ⟨List.drop_set_of_lt hdst, ?_⟩
  rw [List.take_succ_eq_append_getElem (by simpa using hlt), List.getElem_set_self,
    List.take_set_of_le (le_refl dst)]

/-- The loop leaves the decoded string behind what it has written, and a NUL there. -/
theorem htmlDecodeLoop_spec (fuel : ℕ) (buf : Bytes) (dst src : ℕ) (hle : dst ≤ src)
    (hfuel : (cstr (buf.drop src)).length < fuel)
    (hlt : src + (cstr (buf.drop src)).length < buf.length) :
    let r := htmlDecodeLoop fuel buf dst src
    r.2 = dst + (htmlDecode (cstr (buf.drop src))).length ∧
      r.1.take r.2 = buf.take dst ++ htmlDecode (cstr (buf.drop src)) ∧ r.1[r.2]? = some 0 := by
  induction fuel generalizing buf dst src with
  | zero => omega
  | succ fuel ih =>
    -- one round that writes `b` and goes on `k` bytes further
    have hround : ∀ (b : Byte) (k : ℕ), k < (cstr (buf.drop src)).length →
        htmlDecode (cstr (buf.drop src)) = b :: htmlDecode ((cstr (buf.drop src)).drop (k + 1)) →
        let r := htmlDecodeLoop fuel (buf.set dst b) (dst + 1) (src + 1 + k)
        r.2 = dst + (htmlDecode (cstr (buf.drop src))).length ∧
          r.1.take r.2 = buf.take dst ++ htmlDecode (cstr (buf.drop src)) ∧ r.1[r.2]? = some 0 := by
      intro b k hk hdecode
      obtain ⟨hdrop, htake⟩ := set_behind buf (show dst < src + 1 + k by omega) b (by omega)
      have hrest : cstr ((buf.set dst b).drop (src + 1 + k)) =
          (cstr (buf.drop src)).drop (k + 1) := by
        rw [hdrop, ← cstr_drop hk, List.drop_drop, Nat.add_assoc, Nat.add_comm 1 k]
      have hlength : (cstr ((buf.set dst b).drop (src + 1 + k))).length =
          (cstr (buf.drop src)).length - (k + 1) := by
        rw [hrest, List.length_drop]
      obtain ⟨hlen, hbuf, hnul⟩ := ih (buf.set dst b) (dst + 1) (src + 1 + k) (by omega) (by omega)
        (by rw [List.length_set]; omega)
      rw [hrest] at hlen hbuf
      refine ⟨?_, ?_, hnul⟩
      · rw [hlen, hdecode, List.length_cons]
        omega
      · rw [hbuf, htake, hdecode, List.append_assoc]
        rfl
    unfold htmlDecodeLoop
    cases hs : cstr (buf.drop src) with
    | nil =>
      rw [hs] at hlt
      refine ⟨by simp [htmlDecode], ?_, ?_⟩
      · simp [htmlDecode, List.take_set_of_le]
      · exact List.getElem?_set_self (by simp at hlt; omega)
    | cons c s =>
      rw [hs] at hround
      dsimp only
      cases hfound : (if c = 38 then entity s else none) with
      | none =>
        have hchar : c = 38 → entity s = none := fun hc => by rwa [if_pos hc] at hfound
        exact hround c 0 (by simp) (by rw [htmlDecode_char hchar]; rfl)
      | some r =>
        obtain ⟨b, rest⟩ := r
        have hc : c = 38 := by
          by_contra hc
          rw [if_neg hc] at hfound
          cases hfound
        rw [if_pos hc] at hfound
        have hrest := List.suffix_iff_eq_drop.mp (entity_suffix hfound)
        have hused : s.length - rest.length < (c :: s).length := by
          rw [List.length_cons]
          omega
        refine hround b (s.length - rest.length) hused ?_
        rw [List.drop_succ_cons, ← hrest, hc, htmlDecode_entity hfound]

/-- `KXml::htmlDecode` leaves the decoded string in its buffer and its length in `len`. -/
theorem htmlDecodeBuf_spec {buf : Bytes} (hnul : (cstr buf).length < buf.length) :
    (htmlDecodeBuf buf).2 = toInt32 (htmlDecode (cstr buf)).length ∧
      (htmlDecodeBuf buf).1.take (htmlDecode (cstr buf)).length = htmlDecode (cstr buf) ∧
        (htmlDecodeBuf buf).1[(htmlDecode (cstr buf)).length]? = some 0 := by
  obtain ⟨hlen, hbuf, hend⟩ := htmlDecodeLoop_spec (buf.length + 1) buf 0 0 le_rfl
    (Nat.lt_succ_of_lt hnul) (by simpa using hnul)
  rw [List.drop_zero, Nat.zero_add] at hlen
  rw [hlen] at hbuf hend
  refine ⟨?_, hbuf, hend⟩
  unfold htmlDecodeBuf
  dsimp only
  rw [hlen]

/-- An `int` is no greater than the length that it is made of. -/
theorem toInt32_le (n : ℕ) : toInt32 n ≤ n := by
  unfold toInt32
  rw [Int.bmod_def]
  split <;> omega

theorem toInt32_of_lt {n : ℕ} (h : n < 2 ^ 31) : toInt32 n = n := by
  unfold toInt32
  rw [Int.bmod_def]
  split <;> omega

/-! ## Encoding -/

/-- A character comes back from what is written for it. -/
theorem htmlDecode_encodeChar (c : Byte) (rest : Bytes) :
    htmlDecode (htmlEncodeChar c ++ rest) = c :: htmlDecode rest := by
  unfold htmlEncodeChar
  split_ifs with h39 h34 h38 h62 h60
  · have hentity : entity (kglString "#39;" ++ rest) = some (39, rest) := rfl
    exact h39 ▸ htmlDecode_entity hentity
  · have hentity : entity (kglString "#34;" ++ rest) = some (34, rest) := rfl
    exact h34 ▸ htmlDecode_entity hentity
  · have hentity : entity (kglString "amp;" ++ rest) = some (38, rest) := rfl
    exact h38 ▸ htmlDecode_entity hentity
  · have hentity : entity (kglString "gt;" ++ rest) = some (62, rest) := rfl
    exact h62 ▸ htmlDecode_entity hentity
  · have hentity : entity (kglString "lt;" ++ rest) = some (60, rest) := rfl
    exact h60 ▸ htmlDecode_entity hentity
  · exact htmlDecode_char fun hc => absurd hc h38

/-- The characters that an encoded string is free of. -/
def markup : Bytes := kglString "<>\"'"

theorem written_spec {t : Bytes}
    (h : (Nat.ble t.length 5 && t.all fun b => b != 0 && !markup.contains b) = true) :
    t.length ≤ 5 ∧ 0 ∉ t ∧ ∀ b ∈ t, b ∉ markup := by
  obtain ⟨hlength, hall⟩ := Bool.and_eq_true_iff.mp h
  have hbyte : ∀ b ∈ t, b ≠ 0 ∧ b ∉ markup := fun b hb => by
    simpa using List.all_eq_true.mp hall b hb
  exact ⟨Nat.le_of_ble_eq_true hlength, fun h => (hbyte 0 h).1 rfl, fun b hb => (hbyte b hb).2⟩

/-- What is written for a character: at most five bytes, none of them markup or NUL. -/
theorem htmlEncodeChar_spec {c : Byte} (hc : c ≠ 0) :
    (htmlEncodeChar c).length ≤ 5 ∧ 0 ∉ htmlEncodeChar c ∧ ∀ b ∈ htmlEncodeChar c, b ∉ markup := by
  have hmarkup : markup = [60, 62, 34, 39] := rfl
  unfold htmlEncodeChar
  split_ifs with h39 h34 h38 h62 h60
  · exact written_spec rfl
  · exact written_spec rfl
  · exact written_spec rfl
  · exact written_spec rfl
  · exact written_spec rfl
  · refine ⟨by simp, by simpa using hc.symm, ?_⟩
    rw [hmarkup]
    simp [h39, h34, h62, h60]

theorem htmlEncodeLoop_spec {s : Bytes} (hs : 0 ∉ s) :
    (htmlEncodeLoop s).length ≤ 5 * s.length ∧ 0 ∉ htmlEncodeLoop s ∧
      (∀ b ∈ htmlEncodeLoop s, b ∉ markup) ∧ htmlDecode (htmlEncodeLoop s) = s := by
  induction s with
  | nil => simp [htmlEncodeLoop, htmlDecode]
  | cons c s ih =>
    obtain ⟨hc, hs⟩ := not_or.mp (List.mem_cons.not.mp hs)
    obtain ⟨hlength, hnul, hfree, hdecode⟩ := ih hs
    obtain ⟨hlengthc, hnulc, hfreec⟩ := htmlEncodeChar_spec (Ne.symm hc)
    rw [htmlEncodeLoop, if_neg (Ne.symm hc)]
    refine ⟨?_, ?_, ?_, ?_⟩
    · rw [List.length_append, List.length_cons]
      omega
    · exact fun h => (List.mem_append.mp h).elim hnulc hnul
    · exact fun b hb => (List.mem_append.mp hb).elim (hfreec b) (hfree b)
    · rw [htmlDecode_encodeChar, hdecode]

/-! ## The round trip -/

/-- `KXml::htmlEncode` gives a string without markup, of at most five times the length, that
`KXml::htmlDecode` decodes to the one it was made of, and `len` is its length both times. -/
def HtmlRoundTrips (s : Bytes) : Prop :=
  ∃ out : Bytes, htmlEncode s s.length none = some (out, (out.length : ℤ)) ∧
    (∀ b ∈ out, b ∉ markup) ∧ out.length ≤ 5 * s.length ∧
    (htmlDecodeBuf (out ++ [0])).2 = s.length ∧
    (htmlDecodeBuf (out ++ [0])).1.take (s.length + 1) = s ++ [0]

theorem htmlEncode_none {s : Bytes} {len : ℕ} (h : ¬5 * len + 1 < 2 ^ 31) :
    htmlEncode s len none = none := by
  unfold htmlEncode htmlEncodeSize
  rw [if_neg h]
  rfl

theorem htmlEncode_of_size {s : Bytes} {len : ℕ} (h : 5 * len + 1 < 2 ^ 31)
    (hlength : (htmlEncodeLoop s).length ≤ 5 * len) :
    htmlEncode s len none = some (htmlEncodeLoop s, ((htmlEncodeLoop s).length : ℤ)) := by
  have hroom : (htmlEncodeLoop s).length < 5 * len + 1 := by omega
  unfold htmlEncode htmlEncodeSize
  rw [if_pos h]
  show (if (htmlEncodeLoop s).length < 5 * len + 1 then
    some (htmlEncodeLoop s, toInt32 (htmlEncodeLoop s).length) else none) = _
  rw [if_pos hroom, toInt32_of_lt (hroom.trans h)]

theorem cstr_nul {s : Bytes} (hs : 0 ∉ s) (after : Bytes) : cstr (s ++ 0 :: after) = s := by
  have hpos : ∀ b ∈ s, (decide (b ≠ 0)) = true := fun b hb => by
    simpa using fun h : b = 0 => hs (h ▸ hb)
  unfold cstr
  rw [List.takeWhile_append_of_pos hpos]
  simp

/-- Encoding and decoding give the string back where the size of the buffer is an `int`. -/
theorem htmlRoundTrips_of_size {s : Bytes} (hs : 0 ∉ s) (hsize : 5 * s.length + 1 < 2 ^ 31) :
    HtmlRoundTrips s := by
  obtain ⟨hlength, hnul, hfree, hdecode⟩ := htmlEncodeLoop_spec hs
  have hcstr : cstr (htmlEncodeLoop s ++ [0]) = htmlEncodeLoop s := cstr_nul hnul []
  have hroom : (cstr (htmlEncodeLoop s ++ [0])).length < (htmlEncodeLoop s ++ [0]).length := by
    rw [hcstr, List.length_append]
    exact Nat.lt_succ_self _
  obtain ⟨hlen, hbuf, hend⟩ := htmlDecodeBuf_spec hroom
  rw [hcstr, hdecode] at hlen hbuf hend
  refine ⟨htmlEncodeLoop s, htmlEncode_of_size hsize hlength, hfree, hlength, ?_, ?_⟩
  · rw [hlen, toInt32_of_lt (by omega)]
  · rw [List.take_add_one, hbuf, hend]
    rfl

/-- A string comes back from its encoding exactly when the size of the buffer for it is an `int`;
and no string gets longer when it is decoded. -/
theorem htmlRoundTrips_iff (s : Bytes) (hs : 0 ∉ s) :
    (HtmlRoundTrips s ↔ 5 * s.length + 1 < 2 ^ 31) ∧
      ∀ t after : Bytes, 0 ∉ t → (htmlDecodeBuf (t ++ 0 :: after)).2 ≤ t.length := by
  refine ⟨⟨fun h => ?_, htmlRoundTrips_of_size hs⟩, fun t after ht => ?_⟩
  · obtain ⟨out, hout, -⟩ := h
    by_contra hsize
    rw [htmlEncode_none hsize] at hout
    cases hout
  · have hcstr := cstr_nul ht after
    have hroom : (cstr (t ++ 0 :: after)).length < (t ++ 0 :: after).length := by
      rw [hcstr, List.length_append, List.length_cons]
      omega
    obtain ⟨hlen, -, -⟩ := htmlDecodeBuf_spec hroom
    rw [hlen, hcstr]
    exact (toInt32_le _).trans (by exact_mod_cast length_htmlDecode t)

/-- Markup beside an entity, and a decoded entity. -/
theorem htmlRoundTrips_markup :
    HtmlRoundTrips (kglString "<&#39;>") ∧ (htmlDecodeBuf (kglString "&#39;" ++ 0 :: [])).2 ≤ 5 :=
  ⟨(htmlRoundTrips_iff (kglString "<&#39;>") (by decide)).1.mpr (by decide),
    (htmlRoundTrips_iff (kglString "<&#39;>") (by decide)).2 (kglString "&#39;") [] (by decide)⟩

/-- The size of the buffer for a long string is no `int`. -/
theorem htmlRoundTrips_wrong :
    0 ∉ List.replicate (2 ^ 29) (97 : Byte) ∧ ¬HtmlRoundTrips (List.replicate (2 ^ 29) 97) := by
  refine ⟨fun h => ?_, ?_⟩
  · exact absurd (List.eq_of_mem_replicate h) (by decide)
  · rintro ⟨out, hout, -⟩
    rw [List.length_replicate, htmlEncode_none (by decide)] at hout
    cases hout

end Khttpd
