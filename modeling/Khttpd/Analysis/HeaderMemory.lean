import Mathlib.Data.Nat.Find
import Khttpd.Model.HeaderMemory

/-!
# What `khttp_parse` reads

The look for a folded line reads the byte behind a line end. For the first line end this byte was
received; behind the folded lines it may not be.
-/

set_option autoImplicit false

namespace Khttpd

namespace InPlace

open MemoryProgram

variable {m : ℕ → Byte} {s n i : ℕ} {c : Byte}

/-! ## Searching -/

/-- `memchr` stops at the first byte that it looks for. -/
theorem run_memchr_found (hi : i < n) (hbefore : ∀ j, j < i → m (s + j) ≠ c) (hat : m (s + i) = c) :
    run (memchr s c n) m = ⟨some (s + i), m, List.range' s (i + 1)⟩ := by
  induction n generalizing s i with
  | zero => omega
  | succ n ih =>
    unfold memchr
    rw [run_load_bind]
    cases i with
    | zero =>
      rw [Nat.add_zero] at hat
      rw [if_pos hat]
      rfl
    | succ i =>
      have hshift : ∀ j, s + 1 + j = s + (j + 1) := fun j => by omega
      have hrest := ih (s := s + 1) (i := i) (Nat.lt_of_succ_lt_succ hi)
        (fun j hj => hshift j ▸ hbefore (j + 1) (Nat.succ_lt_succ hj)) (hshift i ▸ hat)
      have hfirst : m s ≠ c := hbefore 0 (Nat.zero_lt_succ i)
      rw [if_neg hfirst, hrest, hshift i]
      rfl

/-- `memchr` looks at every byte where there is none. -/
theorem run_memchr_none (hnone : ∀ j, j < n → m (s + j) ≠ c) :
    run (memchr s c n) m = ⟨none, m, List.range' s n⟩ := by
  induction n generalizing s with
  | zero => rfl
  | succ n ih =>
    have hfirst : m s ≠ c := hnone 0 (Nat.zero_lt_succ n)
    unfold memchr
    rw [run_load_bind, if_neg hfirst, ih]
    · rfl
    · intro j hj
      have hshift : s + 1 + j = s + (j + 1) := by omega
      rw [hshift]
      exact hnone (j + 1) (Nat.succ_lt_succ hj)

/-- A search finds the first such byte, or there is none. -/
theorem memchr_cases (m : ℕ → Byte) (s : ℕ) (c : Byte) (n : ℕ) :
    (∃ i, i < n ∧ (∀ j, j < i → m (s + j) ≠ c) ∧ m (s + i) = c ∧
        run (memchr s c n) m = ⟨some (s + i), m, List.range' s (i + 1)⟩) ∨
      (∀ j, j < n → m (s + j) ≠ c) ∧ run (memchr s c n) m = ⟨none, m, List.range' s n⟩ := by
  by_cases h : ∃ i, i < n ∧ m (s + i) = c
  · classical
    have hmin : ∀ j, j < Nat.find h → m (s + j) ≠ c := by
      intro j hj heq
      exact Nat.find_min h hj ⟨hj.trans (Nat.find_spec h).1, heq⟩
    obtain ⟨hlt, hat⟩ := Nat.find_spec h
    exact Or.inl ⟨Nat.find h, hlt, hmin, hat, run_memchr_found hlt hmin hat⟩
  · have hnone : ∀ j, j < n → m (s + j) ≠ c := fun j hj heq => h ⟨j, hj, heq⟩
    exact Or.inr ⟨hnone, run_memchr_none hnone⟩

/-- A search changes nothing and looks at no other byte. -/
theorem memchr_reads (m : ℕ → Byte) (s : ℕ) (c : Byte) (n : ℕ) :
    (run (memchr s c n) m).mem = m ∧ (∀ a ∈ (run (memchr s c n) m).reads, s ≤ a ∧ a < s + n) ∧
      ∀ a ∈ (run (memchr s c n) m).value, s ≤ a ∧ a < s + n ∧ m a = c := by
  rcases memchr_cases m s c n with ⟨i, hi, -, hat, hrun⟩ | ⟨-, hrun⟩
  · rw [hrun]
    refine ⟨rfl, ?_, ?_⟩
    · intro a ha
      have h := List.mem_range'_1.mp ha
      omega
    · intro a ha
      obtain rfl := Option.some_inj.mp ha
      exact ⟨Nat.le_add_right _ _, by omega, hat⟩
  · rw [hrun]
    refine ⟨rfl, ?_, ?_⟩
    · intro a ha
      exact List.mem_range'_1.mp ha
    · intro a ha
      cases ha

/-- A loop with a terminator before it stops there at the latest. -/
theorem scanWhile_spec (more : Byte → Bool) {p stop : ℕ} (hp : p ≤ stop) (hstop : m stop = 0)
    (fuel : ℕ) :
    (run (scanWhile more fuel p) m).mem = m ∧
      (∀ a ∈ (run (scanWhile more fuel p) m).reads, p ≤ a ∧ a ≤ stop) ∧
      p ≤ (run (scanWhile more fuel p) m).value ∧ (run (scanWhile more fuel p) m).value ≤ stop := by
  induction fuel generalizing p with
  | zero => exact ⟨rfl, fun a ha => absurd ha List.not_mem_nil, le_rfl, hp⟩
  | succ fuel ih =>
    unfold scanWhile
    rw [run_load_bind]
    by_cases hmore : m p ≠ 0 ∧ more (m p)
    · have hlt : p < stop := by
        refine Nat.lt_of_le_of_ne hp ?_
        rintro rfl
        exact hmore.1 hstop
      have hnext : p + 1 ≤ stop := hlt
      obtain ⟨hmem, hreads, hlow, hhigh⟩ := ih hnext
      rw [if_pos hmore]
      refine ⟨hmem, ?_, Nat.le_of_succ_le hlow, hhigh⟩
      intro a ha
      rcases List.mem_cons.mp ha with rfl | ha
      · omega
      · have h := hreads a ha
        omega
    · rw [if_neg hmore]
      refine ⟨rfl, ?_, le_rfl, hp⟩
      intro a ha
      obtain rfl := List.mem_singleton.mp ha
      exact ⟨le_rfl, hp⟩

/-! ## One line -/

/-- A header that is found lies between the start of the line and its end. -/
structure Within (header endp : ℕ) (rs : KHttpParseResult) : Prop where
  attr : rs.attr = header
  apart : header + rs.attrLen < rs.val
  ends : rs.val + rs.valLen = endp

/-- `khttp_parse_header` reads the line and its terminator. -/
theorem khttpParseHeader_spec (parser : KHttpParser) (isFirst : Bool) {header endp : ℕ}
    (hle : header ≤ endp) (hend : m endp = 0) :
    (∀ a ∈ (run (khttpParseHeader parser isFirst header endp) m).reads, header ≤ a ∧ a ≤ endp) ∧
      ∀ rs, (run (khttpParseHeader parser isFirst header endp) m).value = .success rs →
        Within header endp rs := by
  unfold khttpParseHeader
  extract_lets requestLine
  generalize (if requestLine = true then (32 : Byte) else 58) = c
  rw [run_bind]
  rcases memchr_cases m header c (endp - header) with ⟨i, hi, -, hat, hrun⟩ | ⟨-, hrun⟩
  · rw [hrun]
    dsimp only
    rw [run_store_bind, run_bind]
    have hne : endp ≠ header + i := by omega
    have hnul : Function.update m (header + i) 0 endp = 0 := by
      rw [Function.update_of_ne hne]
      exact hend
    obtain ⟨hmem, hreads, hlow, hhigh⟩ := scanWhile_spec (fun b => b == 32)
      (show header + i + 1 ≤ endp by omega) hnul (endp - (header + i))
    have hsep : Function.update m (header + i) 0 (header + i) = 0 := Function.update_self ..
    obtain ⟨hmem', hreads', hlow', hhigh'⟩ := scanWhile_spec (fun b => b != 32)
      (Nat.le_add_right header i) hsep (header + i - header + 1)
    unfold skipSpaces findHeaderEnd
    dsimp only
    rw [hmem, run_bind]
    dsimp only
    rw [hmem', run_store_bind, run_pure]
    refine ⟨?_, ?_⟩
    · intro a ha
      simp only [List.mem_append, List.append_nil, List.mem_range'_1] at ha
      rcases ha with ha | ha | ha
      · omega
      · have h := hreads a ha
        omega
      · have h := hreads' a ha
        omega
    · intro rs hrs
      obtain rfl := KglParseResult.success.inj hrs
      refine ⟨rfl, ?_, ?_⟩
      · dsimp only
        omega
      · dsimp only
        omega
  · rw [hrun]
    dsimp only
    rw [run_pure, List.append_nil]
    refine ⟨?_, ?_⟩
    · intro a ha
      have h := List.mem_range'_1.mp ha
      omega
    · intro rs hrs
      cases hrs

/-- A `\r` is looked for within the line. -/
theorem crBefore_spec {start pn : ℕ} (hle : start ≤ pn) :
    ∃ cr log, run (crBefore pn (pn + 1 - start)) m = ⟨cr, m, log⟩ ∧
      (∀ a ∈ log, start ≤ a ∧ a ≤ pn) ∧ (cr = true → start + 3 ≤ pn) := by
  unfold crBefore
  by_cases hlong : pn + 1 - start > 3
  · rw [if_pos hlong, run_load_bind, run_pure]
    refine ⟨_, _, rfl, ?_, fun _ => by omega⟩
    intro a ha
    obtain rfl := List.mem_singleton.mp ha
    omega
  · rw [if_neg hlong, run_pure]
    refine ⟨_, _, rfl, ?_, fun h => Bool.noConfusion h⟩
    intro a ha
    exact absurd ha List.not_mem_nil

/-- A line is taken up to its line end. -/
theorem takeLine_spec (parser : KHttpParser) {start pn : ℕ} (hle : start ≤ pn) :
    (∀ a ∈ (run (takeLine parser start pn) m).reads, start ≤ a ∧ a ≤ pn) ∧
      ∀ rs, (run (takeLine parser start pn) m).value.result = .success rs →
        ∃ endp, endp ≤ pn ∧ Within start endp rs := by
  unfold takeLine
  extract_lets checked parser'
  obtain ⟨cr, log, hrun, hlog, hcr⟩ := crBefore_spec (m := m) hle
  rw [run_bind, hrun]
  dsimp only
  rw [run_store_bind, run_bind]
  dsimp only
  rw [run_pure]
  have hpn : start ≤ (if cr = true then pn - 1 else pn) ∧
      (if cr = true then pn - 1 else pn) ≤ pn := by
    split
    · have h := hcr ‹_›
      omega
    · exact ⟨hle, le_rfl⟩
  generalize (if cr = true then pn - 1 else pn) = endp at hpn
  obtain ⟨hreads, hfound⟩ := khttpParseHeader_spec parser' (!parser.started) hpn.1
    (Function.update_self endp (0 : Byte) m)
  refine ⟨?_, fun rs hrs => ⟨endp, hpn.2, hfound rs hrs⟩⟩
  intro a ha
  simp only [List.append_nil, List.mem_append] at ha
  rcases ha with ha | ha
  · exact hlog a ha
  · have h := hreads a ha
    omega

/-! ## Folded lines -/

/-- The bytes from one address up to another. -/
def bytesAt (m : ℕ → Byte) (a b : ℕ) : Bytes := (List.range' a (b - a)).map m

theorem bytesAt_self (m : ℕ → Byte) (a : ℕ) : bytesAt m a a = [] := by
  simp only [bytesAt, Nat.sub_self]
  rfl

theorem bytesAt_cons (m : ℕ → Byte) {a b : ℕ} (h : a < b) :
    bytesAt m a b = m a :: bytesAt m (a + 1) b := by
  obtain ⟨n, hn⟩ := Nat.exists_eq_add_of_lt h
  have h1 : b - a = n + 1 := by omega
  have h2 : b - (a + 1) = n := by omega
  simp only [bytesAt, h1, h2, List.range'_succ, List.map_cons]

theorem bytesAt_append (m : ℕ → Byte) {a b c : ℕ} (hab : a ≤ b) (hbc : b ≤ c) :
    bytesAt m a c = bytesAt m a b ++ bytesAt m b c := by
  have hlen : c - a = (b - a) + (c - b) := by omega
  have hstart : a + (b - a) = b := by omega
  simp only [bytesAt, hlen, ← List.map_append]
  rw [← List.range'_append_1, hstart]

theorem mem_bytesAt {a b : ℕ} : c ∈ bytesAt m a b ↔ ∃ p, a ≤ p ∧ p < b ∧ m p = c := by
  simp only [bytesAt, List.mem_map, List.mem_range'_1]
  constructor
  · rintro ⟨p, ⟨hlow, hhigh⟩, hp⟩
    exact ⟨p, hlow, by omega, hp⟩
  · rintro ⟨p, hlow, hhigh, hp⟩
    exact ⟨p, ⟨hlow, by omega⟩, hp⟩

theorem bytesAt_congr {m' : ℕ → Byte} {a b : ℕ} (h : ∀ p, a ≤ p → p < b → m' p = m p) :
    bytesAt m' a b = bytesAt m a b := by
  refine List.map_congr_left ?_
  intro p hp
  have hrange := List.mem_range'_1.mp hp
  exact h p hrange.1 (by omega)

/-- Complete lines that belong to the line before them. -/
inductive FoldedLines : Bytes → Prop
  | nil : FoldedLines []
  | line {c : Byte} {text rest : Bytes} (hfold : c = 32 ∨ c = 9) (htext : (10 : Byte) ∉ text)
      (hrest : FoldedLines rest) : FoldedLines (c :: (text ++ 10 :: rest))

/-- The first line end splits the bytes in one way. -/
theorem lineEnd_inj {text text' rest rest' : Bytes} (htext : (10 : Byte) ∉ text)
    (htext' : (10 : Byte) ∉ text') (h : text ++ 10 :: rest = text' ++ 10 :: rest') :
    text = text' ∧ rest = rest' := by
  induction text generalizing text' with
  | nil =>
    cases text' with
    | nil => exact ⟨rfl, (List.cons.inj h).2⟩
    | cons c text' => exact absurd ((List.cons.inj h).1 ▸ List.mem_cons_self) htext'
  | cons b text ih =>
    cases text' with
    | nil => exact absurd ((List.cons.inj h).1 ▸ List.mem_cons_self) htext
    | cons c text' =>
      obtain ⟨rfl, hrest⟩ := List.cons.inj h
      obtain ⟨rfl, rfl⟩ := ih (fun hb => htext (List.mem_cons_of_mem _ hb))
        (fun hb => htext' (List.mem_cons_of_mem _ hb)) hrest
      exact ⟨rfl, rfl⟩

/-- Behind a folded line come more of them. -/
theorem foldedLines_iff {c : Byte} {text rest : Bytes} (hfold : c = 32 ∨ c = 9)
    (htext : (10 : Byte) ∉ text) : FoldedLines (c :: (text ++ 10 :: rest)) ↔ FoldedLines rest := by
  refine ⟨?_, .line hfold htext⟩
  intro h
  generalize hbuf : c :: (text ++ 10 :: rest) = buf at h
  cases h with
  | nil => cases hbuf
  | line hfold' htext' hrest =>
    obtain ⟨-, rfl⟩ := lineEnd_inj htext htext' (List.cons.inj hbuf).2
    exact hrest

/-- A folded line starts with white space and has a line end. -/
theorem FoldedLines.head {c : Byte} {rest : Bytes} (h : FoldedLines (c :: rest)) :
    (c = 32 ∨ c = 9) ∧ (10 : Byte) ∈ rest := by
  cases h with
  | line hfold htext hrest => exact ⟨hfold, List.mem_append_right _ List.mem_cons_self⟩

/-- `spaceCr` writes a space to what was checked, or nothing. -/
theorem spaceCr_spec (m : ℕ → Byte) (start n : ℕ) :
    ∃ m' log, run (spaceCr start n) m = ⟨(), m', log⟩ ∧ (∀ a ∈ log, start ≤ a ∧ a < start + n) ∧
      ∀ a, m' a = m a ∨ start ≤ a ∧ a < start + n ∧ m' a = 32 := by
  unfold spaceCr
  rw [run_bind]
  rcases memchr_cases m start 13 n with ⟨i, hi, -, -, hrun⟩ | ⟨-, hrun⟩
  · rw [hrun]
    dsimp only
    rw [run_store, List.append_nil]
    refine ⟨_, _, rfl, ?_, ?_⟩
    · intro a ha
      have h := List.mem_range'_1.mp ha
      omega
    · intro a
      by_cases ha : a = start + i
      · subst ha
        exact Or.inr ⟨Nat.le_add_right _ _, by omega, Function.update_self ..⟩
      · exact Or.inl (Function.update_of_ne ha _ _)
  · rw [hrun]
    dsimp only
    rw [run_pure, List.append_nil]
    exact ⟨_, _, rfl, fun a ha => List.mem_range'_1.mp ha, fun a => Or.inl rfl⟩

/-- The loop over folded lines stays in the buffer unless the buffer ends behind one of them. -/
theorem foldLines_spec {start endp fuel pn : ℕ} (hstart : start ≤ pn) (hpn : pn < endp)
    (hfuel : endp - pn ≤ fuel) :
    ((∀ a ∈ (run (foldLines start endp fuel pn) m).reads, start ≤ a ∧ a < endp) ↔
        ¬FoldedLines (bytesAt m (pn + 1) endp)) ∧
      ∀ q, (run (foldLines start endp fuel pn) m).value = some q → pn ≤ q ∧ q < endp := by
  induction fuel generalizing m pn with
  | zero => omega
  | succ fuel ih =>
    unfold foldLines
    rw [run_load_bind]
    by_cases hfold : m (pn + 1) = 32 ∨ m (pn + 1) = 9
    · rw [if_pos hfold, run_store_bind, run_bind]
      obtain ⟨m', log, hrun, hlog, hm'⟩ :=
        spaceCr_spec (Function.update m pn 32) start (pn + 1 - start)
      have hspace : m' pn = 32 := by
        rcases hm' pn with h | h
        · rw [h, Function.update_self]
        · exact h.2.2
      have hsame : ∀ a, pn < a → m' a = m a := by
        intro a ha
        rcases hm' a with h | h
        · rw [h, Function.update_of_ne (by omega)]
        · omega
      rw [hrun]
      dsimp only
      rw [run_bind]
      rcases memchr_cases m' pn 10 (endp - pn) with ⟨i, hi, hbefore, hat, hfound⟩ | ⟨hnone, hfound⟩
      · have hbehind : 2 ≤ i := by
          have hzero : i ≠ 0 := by
            rintro rfl
            rw [Nat.add_zero, hspace] at hat
            exact absurd hat (by decide)
          have hone : i ≠ 1 := by
            rintro rfl
            rw [hsame (pn + 1) (Nat.lt_succ_self pn)] at hat
            rcases hfold with h | h
            · exact absurd (h.symm.trans hat) (by decide)
            · exact absurd (h.symm.trans hat) (by decide)
          omega
        obtain ⟨hiff, hvalue⟩ := ih (m := m') (show start ≤ pn + i by omega) (by omega) (by omega)
        have hsplit : bytesAt m (pn + 1) endp = m (pn + 1) ::
            (bytesAt m (pn + 1 + 1) (pn + i) ++ 10 :: bytesAt m' (pn + i + 1) endp) := by
          rw [bytesAt_cons m (by omega), bytesAt_append m (show pn + 1 + 1 ≤ pn + i by omega)
            (show pn + i ≤ endp by omega), bytesAt_cons m (show pn + i < endp by omega),
            ← hsame (pn + i) (by omega), hat,
            bytesAt_congr fun p hp _ => hsame p (by omega)]
        have htext : (10 : Byte) ∉ bytesAt m (pn + 1 + 1) (pn + i) := by
          intro h
          obtain ⟨p, hlow, hhigh, hp⟩ := mem_bytesAt.mp h
          refine hbefore (p - pn) (by omega) ?_
          rw [Nat.add_sub_of_le (by omega), hsame p (by omega)]
          exact hp
        rw [hfound]
        dsimp only
        rw [hsplit, foldedLines_iff hfold htext, ← hiff]
        refine ⟨?_, fun q hq => ?_⟩
        · constructor
          · intro h a ha
            exact h a (by simp [ha])
          · intro h a ha
            simp only [List.mem_cons, List.mem_append, List.mem_range'_1] at ha
            rcases ha with rfl | ha | ha | ha
            · omega
            · have hrange := hlog a ha
              omega
            · omega
            · exact h a ha
        · have hq := hvalue q hq
          omega
      · rw [hfound]
        dsimp only
        rw [run_pure, List.append_nil]
        refine ⟨?_, ?_⟩
        rotate_left
        · intro q hq
          cases hq
        constructor
        · intro hreads h
          have hnext := hreads (pn + 1) List.mem_cons_self
          rw [bytesAt_cons m hnext.2] at h
          obtain ⟨p, hlow, hhigh, hp⟩ := mem_bytesAt.mp h.head.2
          refine hnone (p - pn) (by omega) ?_
          rw [Nat.add_sub_of_le (by omega), hsame p (by omega)]
          exact hp
        · intro h a ha
          have hmore : pn + 1 < endp := by
            refine Nat.lt_of_le_of_ne hpn ?_
            rintro rfl
            rw [bytesAt_self] at h
            exact h .nil
          simp only [List.mem_cons, List.mem_append, List.mem_range'_1] at ha
          rcases ha with rfl | ha | ha
          · omega
          · have hrange := hlog a ha
            omega
          · omega
    · rw [if_neg hfold, run_pure]
      refine ⟨?_, ?_⟩
      · constructor
        · intro hreads h
          have hnext := hreads (pn + 1) List.mem_cons_self
          rw [bytesAt_cons m hnext.2] at h
          exact hfold h.head.1
        · intro h a ha
          obtain rfl := List.mem_singleton.mp ha
          refine ⟨by omega, Nat.lt_of_le_of_ne hpn ?_⟩
          rintro rfl
          rw [bytesAt_self] at h
          exact h .nil
      · intro q hq
        obtain rfl := Option.some_inj.mp hq
        exact ⟨le_rfl, hpn⟩

/-! ## The whole parser -/

/-- The bytes are a line that is not blank and one or more complete folded lines behind it. -/
def EndsFolded (buf : Bytes) : Prop :=
  ∃ line rest, buf = line ++ 10 :: rest ∧ (10 : Byte) ∉ line ∧ line ≠ [] ∧ line.head? ≠ some 13 ∧
    rest ≠ [] ∧ FoldedLines rest

theorem endsFolded_iff {line rest : Bytes} (hline : (10 : Byte) ∉ line) :
    EndsFolded (line ++ 10 :: rest) ↔
      line ≠ [] ∧ line.head? ≠ some 13 ∧ rest ≠ [] ∧ FoldedLines rest := by
  constructor
  · rintro ⟨line', rest', heq, hline', h⟩
    obtain ⟨rfl, rfl⟩ := lineEnd_inj hline hline' heq
    exact h
  · intro h
    exact ⟨line, rest, rfl, hline, h⟩

/-- A header that is found lies in the buffer. -/
def FoundIn (start endp : ℕ) (result : KglParseResult) : Prop :=
  ∀ rs, result = .success rs → ∃ header e, start ≤ header ∧ e < endp ∧ Within header e rs

theorem foundIn_continue (start endp : ℕ) : FoundIn start endp .continue := by
  intro rs hrs
  cases hrs

theorem foundIn_finished (start endp : ℕ) : FoundIn start endp .finished := by
  intro rs hrs
  cases hrs

/-- Nothing is read. -/
theorem reads_nil {start endp : ℕ} : ∀ a ∈ ([] : List ℕ), start ≤ a ∧ a < endp := by
  intro a ha
  cases ha

/-- A line is taken from within the buffer. -/
theorem takeLine_found (m : ℕ → Byte) (parser : KHttpParser) {start pn endp : ℕ} (hle : start ≤ pn)
    (hpn : pn < endp) :
    (∀ a ∈ (run (takeLine parser start pn) m).reads, start ≤ a ∧ a < endp) ∧
      FoundIn start endp (run (takeLine parser start pn) m).value.result := by
  obtain ⟨hreads, hfound⟩ := takeLine_spec (m := m) parser hle
  refine ⟨?_, ?_⟩
  · intro a ha
    have h := hreads a ha
    omega
  · intro rs hrs
    obtain ⟨e, he, hwithin⟩ := hfound rs hrs
    exact ⟨start, e, le_rfl, by omega, hwithin⟩

/-- Before the first line nothing is folded. -/
theorem khttpParse_unstarted (fuel : ℕ) {endp start : ℕ} {parser : KHttpParser}
    (hparser : parser.started = false) (hle : start ≤ endp) :
    (∀ a ∈ (run (khttpParse endp fuel parser start) m).reads, start ≤ a ∧ a < endp) ∧
      FoundIn start endp (run (khttpParse endp fuel parser start) m).value.result := by
  induction fuel generalizing parser start with
  | zero => exact ⟨reads_nil, foundIn_continue _ _⟩
  | succ fuel ih =>
    unfold khttpParse
    by_cases hempty : start = endp
    · rw [if_pos hempty]
      exact ⟨reads_nil, foundIn_continue _ _⟩
    rw [if_neg hempty, run_bind]
    rcases memchr_cases m start 10 (endp - start) with ⟨i, hi, -, hat, hrun⟩ | ⟨-, hrun⟩
    · rw [hrun]
      dsimp only
      rw [run_load_bind]
      dsimp only
      have hchecked : start + (start + i + 1 - start) = start + i + 1 := by omega
      simp only [hparser, Bool.false_eq_true, if_false, hchecked]
      have hrest : ∀ r : Run ℕ Byte KHttpParseOut,
          (∀ a ∈ r.reads, start ≤ a ∧ a < endp) →
            ∀ a ∈ List.range' start (i + 1) ++ start :: r.reads, start ≤ a ∧ a < endp := by
        intro r hr a ha
        simp only [List.mem_append, List.mem_range'_1, List.mem_cons] at ha
        rcases ha with ha | rfl | ha
        · omega
        · omega
        · exact hr a ha
      by_cases hblank : m start = 10 ∨ m start = 13
      · rw [if_pos hblank]
        let next : KHttpParser :=
          { parser with headerLen := parser.headerLen + (start + i + 1 - start), started := false }
        obtain ⟨hreads, hfound⟩ := ih (show next.started = false from rfl)
          (show start + i + 1 ≤ endp by omega)
        refine ⟨hrest _ ?_, ?_⟩
        · intro a ha
          have h := hreads a ha
          omega
        · intro rs hrs
          obtain ⟨header, e, hlow, hhigh, hwithin⟩ := hfound rs hrs
          exact ⟨header, e, by omega, hhigh, hwithin⟩
      · rw [if_neg hblank]
        obtain ⟨hreads, hfound⟩ := takeLine_found m parser (show start ≤ start + i by omega)
          (show start + i < endp by omega)
        exact ⟨hrest _ hreads, hfound⟩
    · rw [hrun]
      dsimp only
      rw [run_pure, List.append_nil]
      refine ⟨?_, foundIn_continue _ _⟩
      intro a ha
      have h := List.mem_range'_1.mp ha
      omega

/-- Behind the first line the folded lines decide. -/
theorem khttpParse_started (fuel : ℕ) {endp start : ℕ} {parser : KHttpParser}
    (hparser : parser.started = true) (hle : start ≤ endp) :
    ((∀ a ∈ (run (khttpParse endp (fuel + 1) parser start) m).reads, start ≤ a ∧ a < endp) ↔
        ¬EndsFolded (bytesAt m start endp)) ∧
      FoundIn start endp (run (khttpParse endp (fuel + 1) parser start) m).value.result := by
  unfold khttpParse
  by_cases hempty : start = endp
  · rw [if_pos hempty]
    refine ⟨⟨?_, fun _ => reads_nil⟩, foundIn_continue _ _⟩
    rintro - ⟨line, rest, heq, -⟩
    rw [hempty, bytesAt_self] at heq
    exact List.append_ne_nil_of_right_ne_nil _ (List.cons_ne_nil _ _) heq.symm
  rw [if_neg hempty, run_bind]
  rcases memchr_cases m start 10 (endp - start) with ⟨i, hi, hbefore, hat, hrun⟩ | ⟨hnone, hrun⟩
  · have hline : (10 : Byte) ∉ bytesAt m start (start + i) := by
      intro h
      obtain ⟨p, hlow, hhigh, hp⟩ := mem_bytesAt.mp h
      refine hbefore (p - start) (by omega) ?_
      rw [Nat.add_sub_of_le hlow]
      exact hp
    have hsplit : bytesAt m start endp =
        bytesAt m start (start + i) ++ 10 :: bytesAt m (start + i + 1) endp := by
      rw [bytesAt_append m (show start ≤ start + i by omega) (show start + i ≤ endp by omega),
        bytesAt_cons m (show start + i < endp by omega), hat]
    have hrest : ∀ log : List ℕ,
        (∀ a ∈ List.range' start (i + 1) ++ start :: log, start ≤ a ∧ a < endp) ↔
          ∀ a ∈ log, start ≤ a ∧ a < endp := by
      intro log
      simp only [List.mem_append, List.mem_range'_1, List.mem_cons]
      constructor
      · intro h a ha
        exact h a (Or.inr (Or.inr ha))
      · rintro h a (ha | rfl | ha)
        · omega
        · omega
        · exact h a ha
    rw [hrun, hsplit, endsFolded_iff hline]
    dsimp only
    rw [run_load_bind]
    dsimp only
    rw [hrest]
    simp only [hparser, if_true]
    by_cases hblank : m start = 10 ∨ m start = 13
    · rw [if_pos hblank, run_pure]
      refine ⟨⟨?_, fun _ => reads_nil⟩, foundIn_finished _ _⟩
      rintro - ⟨hne, hhead, -⟩
      have hpos : 0 < i := by
        refine Nat.pos_of_ne_zero ?_
        rintro rfl
        exact hne (bytesAt_self m start)
      rcases hblank with h | h
      · exact hbefore 0 hpos h
      · rw [bytesAt_cons m (by omega), h] at hhead
        exact hhead rfl
    · rw [if_neg hblank]
      rw [not_or] at hblank
      have hpos : 0 < i := by
        refine Nat.pos_of_ne_zero ?_
        rintro rfl
        exact hblank.1 hat
      have hnotBlank : bytesAt m start (start + i) ≠ [] ∧
          (bytesAt m start (start + i)).head? ≠ some 13 := by
        rw [bytesAt_cons m (show start < start + i by omega)]
        exact ⟨List.cons_ne_nil _ _, fun h => hblank.2 (Option.some_inj.mp h)⟩
      simp only [hnotBlank, ne_eq, not_false_eq_true, true_and]
      by_cases hlast : start + i = endp - 1
      · rw [if_pos hlast, run_pure]
        refine ⟨⟨?_, fun _ => reads_nil⟩, foundIn_continue _ _⟩
        rintro - ⟨hmore, -⟩
        have hend : start + i + 1 = endp := by omega
        rw [hend, bytesAt_self] at hmore
        exact hmore rfl
      · rw [if_neg hlast, run_bind]
        obtain ⟨hiff, hvalue⟩ := foldLines_spec (m := m) (show start ≤ start + i by omega)
          (show start + i < endp by omega) (le_refl (endp - (start + i)))
        have hmore : bytesAt m (start + i + 1) endp ≠ [] := by
          rw [bytesAt_cons m (by omega)]
          exact List.cons_ne_nil _ _
        simp only [hmore, not_false_eq_true, true_and]
        rw [← hiff]
        generalize run (foldLines start endp (endp - (start + i)) (start + i)) m = r at hvalue
        obtain ⟨value, mem, reads⟩ := r
        dsimp only at hvalue ⊢
        cases value with
        | none =>
          dsimp only
          rw [run_pure, List.append_nil]
          exact ⟨Iff.rfl, foundIn_continue _ _⟩
        | some q =>
          have hq := hvalue q rfl
          obtain ⟨htake, hfound⟩ := takeLine_found mem parser (show start ≤ q by omega) hq.2
          refine ⟨⟨?_, ?_⟩, hfound⟩
          · intro h a ha
            exact h a (List.mem_append_left _ ha)
          · intro h a ha
            rcases List.mem_append.mp ha with ha | ha
            · exact h a ha
            · exact htake a ha
  · rw [hrun]
    dsimp only
    rw [run_pure, List.append_nil]
    refine ⟨⟨?_, ?_⟩, foundIn_continue _ _⟩
    · rintro - ⟨line, rest, heq, -⟩
      have hmem : (10 : Byte) ∈ bytesAt m start endp := by
        rw [heq]
        exact List.mem_append_right _ List.mem_cons_self
      obtain ⟨p, hlow, hhigh, hp⟩ := mem_bytesAt.mp hmem
      refine hnone (p - start) (by omega) ?_
      rw [Nat.add_sub_of_le hlow]
      exact hp
    · intro _ a ha
      have h := List.mem_range'_1.mp ha
      omega

/-- `khttp_parse` reads only bytes that were received, and what it does depends on nothing else. -/
structure ReadsReceived (parser : KHttpParser) (m : ℕ → Byte) (start endp : ℕ) : Prop where
  bounds : ∀ a ∈ (run (parse parser start endp) m).reads, start ≤ a ∧ a < endp
  alone : ∀ m' : ℕ → Byte, (∀ a, start ≤ a ∧ a < endp → m' a = m a) →
    (run (parse parser start endp) m').value = (run (parse parser start endp) m).value ∧
      ∀ a, start ≤ a ∧ a < endp →
        (run (parse parser start endp) m').mem a = (run (parse parser start endp) m).mem a

/-- `khttp_parse` reads only received bytes exactly when it is not to look behind folded lines that
end with the buffer. -/
theorem readsReceived_iff (parser : KHttpParser) (m : ℕ → Byte) {start endp : ℕ}
    (hle : start ≤ endp) :
    ReadsReceived parser m start endp ↔
      ¬(parser.started = true ∧ EndsFolded (bytesAt m start endp)) := by
  have hbounds : (∀ a ∈ (run (parse parser start endp) m).reads, start ≤ a ∧ a < endp) ↔
      ¬(parser.started = true ∧ EndsFolded (bytesAt m start endp)) := by
    cases hstarted : parser.started with
    | false =>
      have hreads := (khttpParse_unstarted (m := m) (endp - start + 1) hstarted hle).1
      exact ⟨fun _ h => Bool.noConfusion h.1, fun _ => hreads⟩
    | true =>
      refine (khttpParse_started (endp - start) hstarted hle).1.trans ?_
      simp only [true_and]
  rw [← hbounds]
  refine ⟨ReadsReceived.bounds, fun h => ⟨h, ?_⟩⟩
  intro m' hagree
  obtain ⟨hvalue, -, hmem⟩ := run_congr (parse parser start endp) hagree h
  exact ⟨hvalue, hmem⟩

/-- A memory that starts with these bytes. -/
def memoryOf (buf : Bytes) : ℕ → Byte := fun a => buf.getD a 0

/-- `a: b` with the blank line behind it. -/
theorem readsReceived_lastHeader :
    ReadsReceived ⟨0, true, false, false⟩ (memoryOf [97, 58, 32, 98, 13, 10, 13, 10]) 0 8 := by
  refine (readsReceived_iff _ _ (Nat.zero_le 8)).mpr ?_
  rintro ⟨-, h⟩
  have hsplit : bytesAt (memoryOf [97, 58, 32, 98, 13, 10, 13, 10]) 0 8 =
      [97, 58, 32, 98, 13] ++ 10 :: [13, 10] := rfl
  rw [hsplit, endsFolded_iff (by decide)] at h
  obtain ⟨-, -, -, hfolded⟩ := h
  exact absurd hfolded.head.1 (by decide)

/-- `a:` and a folded line with ` b`: the byte behind its line end is read. -/
theorem foldAtEnd_not_readsReceived :
    ¬ReadsReceived ⟨0, true, false, false⟩ (memoryOf [97, 58, 10, 32, 98, 10]) 0 6 := by
  intro h
  have hread : 6 ∈ (run (parse ⟨0, true, false, false⟩ 0 6)
    (memoryOf [97, 58, 10, 32, 98, 10])).reads := by
    decide
  exact absurd (h.bounds 6 hread).2 (Nat.lt_irrefl 6)

end InPlace

end Khttpd
