import Mathlib.Data.List.Basic
import Khttpd.Model.Http3Sink

/-!
# What `write_all` reports on an HTTP/3 stream

What the stream takes is always a prefix of the chain. The overload on a chain takes the same bytes
off `length` twice, when it prepares them and when they are written, so what it returns is the
number of bytes that are missing in three cases only: nothing was to be written, the whole of it
went through one vector without a failure, or the first vector is empty.
-/

set_option autoImplicit false

namespace Khttpd

namespace KHttp3Sink

variable {s : KHttp3Sink} {hot buf : List Bytes} {length : ℤ} {fuel : ℕ}

/-! ## The library -/

/-- The calls to come take `n` bytes without a failure. -/
def takesAll : List (Option ℤ) → ℕ → Bool
  | _, 0 => true
  | some result :: results, n + 1 => 0 < result && takesAll results (n + 1 - result.toNat)
  | _, _ + 1 => false

/-- The stream takes `n` bytes without a failure. -/
def takes (s : KHttp3Sink) (n : ℕ) : Bool := n = 0 || s.st && takesAll s.results n

/-- A call takes a prefix of what it is offered. -/
theorem internalWrite_sent (s : KHttp3Sink) (buf : List Bytes) :
    (s.internalWrite buf).1.sent = s.sent ++ buf.flatten.take (s.internalWrite buf).2.toNat ∧
      (s.internalWrite buf).2 ≤ buf.flatten.length := by
  have hnone : s.sent = s.sent ++ buf.flatten.take (-1 : ℤ).toNat ∧ (-1 : ℤ) ≤
    buf.flatten.length := by
    refine ⟨(List.append_nil _).symm, ?_⟩
    omega
  unfold internalWrite
  split
  · exact hnone
  · split
    · exact hnone
    · exact hnone
    · refine ⟨rfl, ?_⟩
      exact Int.min_le_right _ _

/-- A call on something fails exactly where the stream does not go on to take all of it. -/
theorem internalWrite_takes (s : KHttp3Sink) (buf : List Bytes) (hbuf : buf.flatten ≠ []) :
    s.takes buf.flatten.length = true ↔
      0 < (s.internalWrite buf).2 ∧
        (s.internalWrite buf).1.takes
          (buf.flatten.length - (s.internalWrite buf).2.toNat) = true := by
  obtain ⟨n, hn⟩ : ∃ n, buf.flatten.length = n + 1 :=
    Nat.exists_eq_succ_of_ne_zero fun h => hbuf (List.length_eq_zero_iff.mp h)
  unfold internalWrite takes
  rw [hn]
  cases hst : s.st with
  | false => simp
  | true =>
    match hres : s.results with
    | [] => simp [takesAll]
    | none :: results => simp [takesAll]
    | some result :: results =>
      by_cases hpos : 0 < result
      · have hgot : 0 < min result (n + 1 : ℤ) := by omega
        have hrest : n + 1 - (min result (n + 1 : ℤ)).toNat = n + 1 - result.toNat := by omega
        have hzero : n + 1 - result.toNat = 0 → takesAll results (n + 1 - result.toNat) = true :=
          fun h => by rw [h]; simp [takesAll]
        simp only [takesAll, hpos, decide_true, Bool.true_and, Bool.not_true, Bool.false_eq_true,
          if_false, Nat.cast_add, Nat.cast_one, hgot, true_and, hrest]
        simpa using hzero
      · have hgot : ¬0 < min result (n + 1 : ℤ) := by omega
        simp [takesAll, hpos]

/-! ## Writing a vector -/

/-- What the accounting loop leaves is what was not taken. -/
theorem hotLoop_flatten (hot : List Bytes) (got : ℕ) :
    (hotLoop hot got).flatten = hot.flatten.drop got := by
  induction hot generalizing got with
  | nil => simp [hotLoop]
  | cons iov hot ih =>
    unfold hotLoop
    split
    · simp [*]
    · split
      · rename_i hlong
        rw [List.flatten_cons, List.flatten_cons,
          List.drop_append_of_le_length (Nat.le_of_lt hlong)]
      · rename_i hshort
        have hle : iov.length ≤ got := Nat.le_of_not_lt hshort
        rw [ih, List.flatten_cons, List.drop_append, List.drop_eq_nil_of_le hle, List.nil_append]

/-- The last iovec has bytes. -/
def Tight (hot : List Bytes) : Prop := ∀ iov ∈ hot.getLast?, iov ≠ []

theorem Tight.flatten_ne (h : Tight hot) (hne : hot ≠ []) : hot.flatten ≠ [] := by
  rcases List.eq_nil_or_concat' hot with rfl | ⟨hot, iov, rfl⟩
  · exact absurd rfl hne
  · have hiov : iov ≠ [] := h iov (by simp)
    simp [hiov]

theorem Tight.hotLoop (h : Tight hot) (got : ℕ) : Tight (hotLoop hot got) := by
  induction hot generalizing got with
  | nil => exact h
  | cons iov hot ih =>
    have htail : Tight hot := fun last hlast => h last (by
      cases hot with
      | nil => cases hlast
      | cons b hot => simpa using hlast)
    unfold KHttp3Sink.hotLoop
    split
    · exact h
    · split
      · rename_i hlong
        intro last hlast
        cases hot with
        | nil =>
          simp only [List.getLast?_singleton, Option.mem_some_iff] at hlast
          rw [← hlast]
          exact List.ne_nil_of_length_pos (by rw [List.length_drop]; omega)
        | cons b hot => exact htail last (by simpa using hlast)
      · exact ih htail _

/-- A vector: the stream takes a prefix of it, `length` loses what is taken, and where the loop does
not return everything is taken. -/
theorem writeLoop_spec (fuel : ℕ) (hot : List Bytes) (s : KHttp3Sink) (length : ℤ)
    (hfuel : hot.flatten.length < fuel) :
    ∃ n, n ≤ hot.flatten.length ∧
      (writeLoop fuel hot s length).1.sent = s.sent ++ hot.flatten.take n ∧
      (writeLoop fuel hot s length).2.1 = length - n ∧
      ((writeLoop fuel hot s length).2.2 = false → n = hot.flatten.length) := by
  induction fuel generalizing hot s length with
  | zero => omega
  | succ fuel ih =>
    cases hot with
    | nil => exact ⟨0, by simp [writeLoop]⟩
    | cons iov hot =>
      unfold writeLoop
      extract_lets r
      have hsent : r.1.sent = s.sent ++ (iov :: hot).flatten.take r.2.toNat :=
        (s.internalWrite_sent (iov :: hot)).1
      have hle : r.2 ≤ (iov :: hot).flatten.length := (s.internalWrite_sent (iov :: hot)).2
      by_cases hfail : r.2 ≤ 0
      · rw [if_pos hfail]
        have hnone : r.2.toNat = 0 := Int.toNat_eq_zero.mpr hfail
        refine ⟨0, Nat.zero_le _, ?_, by simp, by simp⟩
        rw [hsent, hnone]
      · rw [if_neg hfail]
        have hrest := hotLoop_flatten (iov :: hot) r.2.toNat
        obtain ⟨n, hn, hsent', hlength, hall⟩ := ih (hotLoop (iov :: hot) r.2.toNat) r.1
          (length - r.2) (by rw [hrest, List.length_drop]; omega)
        rw [hrest, List.length_drop] at hn hall
        rw [hrest] at hsent'
        refine ⟨r.2.toNat + n, by omega, ?_, by omega, fun h => by have := hall h; omega⟩
        rw [hsent', hsent, List.append_assoc, List.take_add]

/-- The loop does not return exactly where the stream takes the whole vector. -/
theorem writeLoop_takes (fuel : ℕ) (hot : List Bytes) (s : KHttp3Sink) (length : ℤ)
    (hfuel : hot.flatten.length < fuel) (htight : Tight hot) :
    (writeLoop fuel hot s length).2.2 = false ↔ s.takes hot.flatten.length = true := by
  induction fuel generalizing hot s length with
  | zero => omega
  | succ fuel ih =>
    cases hot with
    | nil => simp [writeLoop, takes]
    | cons iov hot =>
      have hne : (iov :: hot).flatten ≠ [] := htight.flatten_ne (List.cons_ne_nil iov hot)
      rw [internalWrite_takes s _ hne]
      unfold writeLoop
      extract_lets r
      show _ ↔ 0 < r.2 ∧ r.1.takes ((iov :: hot).flatten.length - r.2.toNat) = true
      have hle : r.2 ≤ (iov :: hot).flatten.length := (s.internalWrite_sent (iov :: hot)).2
      by_cases hfail : r.2 ≤ 0
      · rw [if_pos hfail]
        have hneg : ¬0 < r.2 := by omega
        simp [hneg]
      · rw [if_neg hfail]
        have hrest := hotLoop_flatten (iov :: hot) r.2.toNat
        have hlen : (hotLoop (iov :: hot) r.2.toNat).flatten.length =
            (iov :: hot).flatten.length - r.2.toNat := by rw [hrest, List.length_drop]
        rw [ih _ r.1 (length - r.2) (by omega) (htight.hotLoop _), hlen]
        exact ⟨fun h => ⟨by omega, h⟩, fun h => h.2⟩

/-- A vector without bytes fails. -/
theorem writeLoop_empty (hne : hot ≠ []) (hbytes : hot.flatten = []) :
    (writeLoop (fuel + 1) hot s length).2.2 = true := by
  cases hot with
  | nil => exact absurd rfl hne
  | cons iov hot =>
    have hle := (s.internalWrite_sent (iov :: hot)).2
    rw [hbytes] at hle
    unfold writeLoop
    extract_lets r
    have hfail : r.2 ≤ 0 := hle
    rw [if_pos hfail]

/-! ## Preparing a vector -/

/-- What the preparing loop makes of a chain of at least `length` bytes: the vector is what the
first `slots` buffers have of them, and `length` loses its bytes. -/
structure Prepared (slots : ℕ) (buf : List Bytes) (length : ℤ) (iovecBuf : List Bytes)
    (left : ℤ) (rest : List Bytes) : Prop where
  bytes : iovecBuf.flatten = (buf.take slots).flatten.take length.toNat
  taken : left = length - iovecBuf.flatten.length
  enough : left ≤ rest.flatten.length
  more : 0 < left → rest = buf.drop slots ∧ iovecBuf = buf.take slots
  tight : left ≤ 0 → Tight iovecBuf
  ne_nil : 0 < slots → 0 < length → iovecBuf ≠ []

theorem prepareLoop_spec (slots : ℕ) (buf : List Bytes) (length : ℤ) (hpos : 0 ≤ length)
    (hlen : length ≤ buf.flatten.length) :
    ∃ iovecBuf left rest, prepareLoop slots buf length = some (iovecBuf, left, rest) ∧
      Prepared slots buf length iovecBuf left rest := by
  induction slots generalizing buf length with
  | zero =>
    refine ⟨[], length, buf, rfl, by simp, by simp, hlen, fun _ => by simp, ?_, by simp⟩
    simp [Tight]
  | succ slots ih =>
    unfold prepareLoop
    by_cases hleft : 0 < length
    · rw [if_pos hleft]
      cases buf with
      | nil =>
        simp only [List.flatten_nil, List.length_nil] at hlen
        omega
      | cons data next =>
        rw [List.flatten_cons, List.length_append] at hlen
        let iovLen := min length data.length
        obtain ⟨iovecBuf, left, rest, hrest, h⟩ := ih next (length - iovLen) (by omega) (by omega)
        have hlength := h.taken
        have htake : (data.take iovLen.toNat).length = iovLen := by
          rw [List.length_take]
          omega
        refine ⟨data.take iovLen.toNat :: iovecBuf, left, rest, by simp [iovLen, hrest], ?_, ?_,
          h.enough, fun hmore => ?_, fun hdone => ?_, fun _ _ => List.cons_ne_nil _ _⟩
        · have hsame : data.take iovLen.toNat = data.take length.toNat := by
            rw [List.take_eq_take_iff]
            omega
          have hshift : (length - iovLen).toNat = length.toNat - data.length := by omega
          rw [List.flatten_cons, List.take_succ_cons, List.flatten_cons, List.take_append, h.bytes,
            hshift, hsame]
        · rw [hlength, List.flatten_cons, List.length_append]
          omega
        · obtain ⟨hdrop, htk⟩ := h.more hmore
          have hall : data.take iovLen.toNat = data := by
            exact List.take_of_length_le (by omega)
          exact ⟨hdrop, by rw [hall, htk, List.take_succ_cons]⟩
        · have htight := h.tight hdone
          cases iovecBuf with
          | nil =>
            intro iov hiov
            simp only [List.getLast?_singleton, Option.mem_some_iff] at hiov
            rw [← hiov]
            simp only [List.flatten_nil, List.length_nil] at hlength
            exact List.ne_nil_of_length_pos (by omega)
          | cons b iovecBuf => exact fun iov hiov => htight iov (by simpa using hiov)
    · rw [if_neg hleft]
      have hzero : length = 0 := by omega
      refine ⟨[], length, buf, rfl, by simp [hzero], by simp, hlen, fun h => absurd h hleft, ?_,
        fun _ h => absurd h hleft⟩
      simp [Tight]

variable {slots : ℕ} {iovecBuf rest : List Bytes} {left : ℤ}

/-- The vector is a prefix of the chain. -/
theorem Prepared.take (h : Prepared slots buf length iovecBuf left rest) {n : ℕ}
    (hn : n ≤ iovecBuf.flatten.length) : iovecBuf.flatten.take n = buf.flatten.take n := by
  have hbuf : buf.flatten = (buf.take slots).flatten ++ (buf.drop slots).flatten := by
    rw [← List.flatten_append, List.take_append_drop]
  have hle : n ≤ length.toNat ∧ n ≤ (buf.take slots).flatten.length := by
    rw [h.bytes, List.length_take] at hn
    omega
  rw [h.bytes, List.take_take, Nat.min_eq_left hle.1, hbuf, List.take_append_of_le_length hle.2]

/-- The chain behind the vector, where there is more to write. -/
theorem Prepared.take_add (h : Prepared slots buf length iovecBuf left rest) {n : ℕ}
    (hn : 0 < n → 0 < left) :
    iovecBuf.flatten ++ rest.flatten.take n = buf.flatten.take (iovecBuf.flatten.length + n) := by
  rcases Nat.eq_zero_or_pos n with rfl | hpos
  · rw [List.take_zero, List.append_nil, Nat.add_zero, ← h.take (Nat.le_refl _), List.take_length]
  · obtain ⟨hdrop, htake⟩ := h.more (hn hpos)
    have hbuf : buf.flatten = iovecBuf.flatten ++ rest.flatten := by
      rw [hdrop, htake, ← List.flatten_append, List.take_append_drop]
    rw [hbuf, List.take_length_add_append]

/-! ## The whole call -/

/-- One round. -/
theorem writeAllLoop_round {r : KHttp3Sink × ℤ × Bool} (hpos : 0 < length)
    (hprep : prepareLoop rqWriteBufCount buf length = some (iovecBuf, left, rest))
    (hout : writeLoop (iovecBuf.flatten.length + 1) iovecBuf s left = r) :
    writeAllLoop (fuel + 1) buf s length =
      bif r.2.2 then some (r.1, r.2.1) else writeAllLoop fuel rest r.1 r.2.1 := by
  obtain ⟨s', length', returned⟩ := r
  rw [writeAllLoop, if_pos hpos, hprep, Option.bind_some]
  dsimp only
  rw [hout]
  cases returned <;> rfl

/-- Whatever the library does, the stream takes a prefix of the chain, and the result is at most the
number of bytes that it did not take. -/
theorem writeAllLoop_le (fuel : ℕ) (buf : List Bytes) (s : KHttp3Sink) (length : ℤ)
    (hlen : length ≤ buf.flatten.length) :
    ∃ s' left n, writeAllLoop fuel buf s length = some (s', left) ∧ n ≤ length.toNat ∧
      s'.sent = s.sent ++ buf.flatten.take n ∧ left ≤ max length 0 - n := by
  induction fuel generalizing buf s length with
  | zero => exact ⟨s, length, 0, rfl, Nat.zero_le _, by simp, by omega⟩
  | succ fuel ih =>
    by_cases hpos : 0 < length
    · obtain ⟨iovecBuf, left, rest, hprep, h⟩ :=
        prepareLoop_spec rqWriteBufCount buf length (Int.le_of_lt hpos) hlen
      have hlength := h.taken
      have henough := h.enough
      have hle : iovecBuf.flatten.length ≤ length.toNat := by
        rw [h.bytes, List.length_take]
        omega
      obtain ⟨n, hn, hsent, hleft, hall⟩ :=
        writeLoop_spec (iovecBuf.flatten.length + 1) iovecBuf s left (Nat.lt_succ_self _)
      match hout : writeLoop (iovecBuf.flatten.length + 1) iovecBuf s left with
      | (s', length', true) =>
        rw [hout] at hsent hleft
        rw [h.take hn] at hsent
        refine ⟨s', length', n, writeAllLoop_round hpos hprep hout, by omega, hsent, ?_⟩
        dsimp only at hleft
        omega
      | (s', length', false) =>
        rw [hout] at hsent hleft hall
        obtain rfl := hall rfl
        dsimp only at hsent hleft
        obtain ⟨s2, left2, n2, hrun, hn2, hsent2, hleft2⟩ := ih rest s' length' (by omega)
        refine ⟨s2, left2, iovecBuf.flatten.length + n2,
          (writeAllLoop_round hpos hprep hout).trans hrun, by omega, ?_, by omega⟩
        rw [hsent2, hsent, List.take_length, List.append_assoc, h.take_add (by omega)]
    · refine ⟨s, 0, 0, ?_, Nat.zero_le _, by simp, by omega⟩
      rw [writeAllLoop, if_neg hpos]

/-- The stream takes the first `n` bytes of the chain, and the number of the other ones is
returned. -/
def Conserves (s : KHttp3Sink) (buf : List Bytes) (length : ℕ) : Prop :=
  ∃ s' left n, s.writeAll buf length = some (s', left) ∧ n ≤ length ∧
    s'.sent = s.sent ++ buf.flatten.take n ∧ left = length - n

/-- `write_all` conserves bytes exactly where there is nothing to write, or the first vector has
room for all of it and the stream takes all of it, or the first vector has no bytes. -/
theorem conserves_iff (s : KHttp3Sink) (buf : List Bytes) (length : ℕ)
    (hlen : length ≤ buf.flatten.length) :
    s.Conserves buf length ↔
      length = 0 ∨
        length ≤ (buf.take rqWriteBufCount).flatten.length ∧ s.takes length = true ∨
        (buf.take rqWriteBufCount).flatten = [] := by
  by_cases hzero : length = 0
  · subst hzero
    exact ⟨fun _ => Or.inl rfl, fun _ => ⟨s, 0, 0, rfl, Nat.le_refl _, by simp, rfl⟩⟩
  have hpos : (0 : ℤ) < length := by omega
  obtain ⟨iovecBuf, left, rest, hprep, h⟩ := prepareLoop_spec rqWriteBufCount buf length
    (Int.le_of_lt hpos) (by omega)
  have htaken := h.taken
  have henough := h.enough
  have hsize : iovecBuf.flatten.length =
      min length (buf.take rqWriteBufCount).flatten.length := by
    rw [h.bytes, List.length_take, Int.toNat_natCast]
  have hfirst : (buf.take rqWriteBufCount).flatten = [] ↔ iovecBuf.flatten.length = 0 := by
    rw [hsize, ← List.length_eq_zero_iff]
    omega
  -- a call takes some number of bytes, and only one number fits what the stream has got
  have hunique : ∀ {s' : KHttp3Sink} {left' : ℤ} {n : ℕ}, n ≤ length →
      s.writeAll buf length = some (s', left') → s'.sent = s.sent ++ buf.flatten.take n →
        (s.Conserves buf length ↔ left' = length - n) := by
    intro s' left' n hn hrun hsent
    refine ⟨?_, fun hleft => ⟨s', left', n, hrun, hn, hsent, hleft⟩⟩
    rintro ⟨s2, left2, n2, hrun2, hn2, hsent2, hleft2⟩
    obtain ⟨rfl, rfl⟩ := Prod.mk.inj (Option.some.inj (hrun.symm.trans hrun2))
    have hbytes := List.append_cancel_left (hsent.symm.trans hsent2)
    have hcount := congrArg List.length hbytes
    rw [List.length_take, List.length_take] at hcount
    omega
  obtain ⟨n, hn, hsent, hleft, hall⟩ :=
    writeLoop_spec (iovecBuf.flatten.length + 1) iovecBuf s left (Nat.lt_succ_self _)
  have hround := fun r =>
    @writeAllLoop_round s buf length length iovecBuf rest left r hpos hprep
  have htakes : left ≤ 0 → ((writeLoop (iovecBuf.flatten.length + 1) iovecBuf s left).2.2 = false ↔
      s.takes iovecBuf.flatten.length = true) := fun hdone =>
    writeLoop_takes (iovecBuf.flatten.length + 1) iovecBuf s left (Nat.lt_succ_self _)
      (h.tight hdone)
  match hout : writeLoop (iovecBuf.flatten.length + 1) iovecBuf s left with
  | (s', length', true) =>
    have hrun : s.writeAll buf length = some (s', length') := hround _ hout
    rw [hout, h.take hn] at hsent
    rw [hout] at hleft htakes
    dsimp only at hleft htakes
    rw [hunique (n := n) (by omega) hrun hsent, hfirst]
    constructor
    · exact fun hresult => Or.inr (Or.inr (by omega))
    · rintro (hnone | ⟨hfits, htake⟩ | hempty)
      · exact absurd hnone hzero
      · have hsame : iovecBuf.flatten.length = length := by omega
        rw [hsame] at htakes
        exact absurd ((htakes (by omega)).mpr htake) (by simp)
      · omega
  | (s', length', false) =>
    have hrun : s.writeAll buf length = writeAllLoop length rest s' length' := hround _ hout
    rw [hout] at hsent hleft hall htakes
    dsimp only at hsent hleft htakes
    obtain rfl := hall rfl
    rw [List.take_length] at hsent
    have hbytes : 0 < iovecBuf.flatten.length := by
      refine Nat.pos_of_ne_zero fun hnone => ?_
      have hempty : (writeLoop (iovecBuf.flatten.length + 1) iovecBuf s left).2.2 = true :=
        writeLoop_empty (h.ne_nil (by decide) hpos) (List.length_eq_zero_iff.mp hnone)
      rw [hout] at hempty
      cases hempty
    obtain ⟨s2, left2, n2, hrun2, hn2, hsent2, hleft2⟩ :=
      writeAllLoop_le length rest s' length' (by omega)
    have hbefore : s2.sent = s.sent ++ buf.flatten.take (iovecBuf.flatten.length + n2) := by
      rw [hsent2, hsent, List.append_assoc, h.take_add (by omega)]
    rw [hunique (n := iovecBuf.flatten.length + n2) (by omega) (hrun.trans hrun2) hbefore, hfirst]
    constructor
    · intro hresult
      have hsame : iovecBuf.flatten.length = length := by omega
      rw [hsame] at htakes
      exact Or.inr (Or.inl ⟨by omega, (htakes (by omega)).mp rfl⟩)
    · rintro (hnone | ⟨hfits, -⟩ | hempty)
      · exact absurd hnone hzero
      · -- the second round ends at once, with `0`
        have hdone : ¬0 < length' := by omega
        obtain ⟨fuel, rfl⟩ := Nat.exists_eq_succ_of_ne_zero hzero
        unfold writeAllLoop at hrun2
        rw [if_neg hdone] at hrun2
        obtain ⟨-, rfl⟩ := Prod.mk.inj (Option.some.inj hrun2)
        omega
      · omega

/-- A stream that takes nothing: the call returns `0`, as if all five bytes had been written. -/
theorem lost_not_conserves :
    ¬(⟨true, -1, [], []⟩ : KHttp3Sink).Conserves [[1, 2, 3, 4, 5]] 5 := by
  rintro ⟨s', left, n, hrun, hn, hsent, hleft⟩
  have hresult : (⟨true, -1, [], []⟩ : KHttp3Sink).writeAll [[1, 2, 3, 4, 5]] (5 : ℕ) =
      some (⟨true, -1, [], []⟩, 0) := rfl
  obtain ⟨rfl, rfl⟩ := Prod.mk.inj (Option.some.inj (hrun.symm.trans hresult))
  obtain rfl : n = 5 := by omega
  simp at hsent

/-- Five bytes in two buffers that the stream takes in two parts. -/
theorem taken_conserves :
    (⟨true, -1, [some 2, some 9], []⟩ : KHttp3Sink).Conserves [[1, 2, 3], [4, 5]] 5 :=
  (conserves_iff _ _ 5 (by decide)).mpr (Or.inr (Or.inl ⟨by decide, by decide⟩))

/-! ## The other overload -/

theorem writeStrLoop_conserves (fuel : ℕ) (str : Bytes) (s : KHttp3Sink) (length : ℕ)
    (hlen : length ≤ str.length) :
    ∃ n, n ≤ length ∧ (writeStrLoop fuel str s length).1.sent = s.sent ++ str.take n ∧
      (writeStrLoop fuel str s length).2 = length - n := by
  induction fuel generalizing str s length with
  | zero => exact ⟨0, by simp [writeStrLoop]⟩
  | succ fuel ih =>
    unfold writeStrLoop
    by_cases hpos : (0 : ℤ) < length
    · rw [if_pos hpos, Int.toNat_natCast]
      extract_lets r
      have hbytes : [str.take length].flatten = str.take length := by simp
      have hsent : r.1.sent = s.sent ++ (str.take length).take r.2.toNat := by
        rw [← hbytes]
        exact (s.internalWrite_sent [str.take length]).1
      have hle : r.2 ≤ length := by
        have hoffer : r.2 ≤ [str.take length].flatten.length :=
          (s.internalWrite_sent [str.take length]).2
        rw [hbytes, List.length_take] at hoffer
        omega
      rw [List.take_take, Nat.min_eq_left (by omega)] at hsent
      by_cases hfail : r.2 ≤ 0
      · rw [if_pos hfail]
        refine ⟨0, Nat.zero_le _, ?_, by simp⟩
        rw [hsent, Int.toNat_eq_zero.mpr hfail]
      · rw [if_neg hfail]
        have hleft : (length : ℤ) - r.2 = ((length - r.2.toNat : ℕ) : ℤ) := by omega
        obtain ⟨n, hn, hsent', hret⟩ := ih (str.drop r.2.toNat) r.1 (length - r.2.toNat)
          (by rw [List.length_drop]; omega)
        rw [hleft]
        refine ⟨r.2.toNat + n, by omega, ?_, by rw [hret]; omega⟩
        rw [hsent', hsent, List.append_assoc, List.take_add]
    · rw [if_neg hpos]
      exact ⟨0, by simp⟩

/-- The overload on one buffer conserves bytes for every length and every library. -/
theorem writeStr_conserves (s : KHttp3Sink) (str : Bytes) (length : ℕ)
    (hlen : length ≤ str.length) :
    ∃ n, n ≤ length ∧ (s.writeStr str length).1.sent = s.sent ++ str.take n ∧
      (s.writeStr str length).2 = length - n :=
  writeStrLoop_conserves _ str s length hlen

end KHttp3Sink

end Khttpd
