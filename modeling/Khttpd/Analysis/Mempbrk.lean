import Khttpd.Lib.Search
import Khttpd.Model.Mempbrk

/-!
# The search of `kgl_mempbrk`

A window of the buffer is searched for one control byte after the other, each only in front of what
was found before, so what is left in the end is the first address of the window where any of them
stands. The windows follow each other without a gap, and the last one ends with the buffer.
-/

set_option autoImplicit false

namespace Khttpd

open MemoryProgram Search

variable {m : ℕ → Byte} {S : ℕ → Prop}

/-- The control bytes. -/
def controlBytes (m : ℕ → Byte) (control controlLen : ℕ) : Bytes :=
  (List.range' control controlLen).map m

/-- The first of `n` addresses where one of the bytes stands, looked for address by address. -/
def firstOf (m : ℕ → Byte) (bytes : Bytes) (str n : ℕ) : Option ℕ :=
  (List.range' str n).find? fun a => bytes.any fun c => m a == c

theorem firstOf_eq (bytes : Bytes) (str n : ℕ) :
    firstOf m bytes str n = first (fun c a => m a == c) bytes (List.range' str n) := rfl

theorem memchr_reads (c : Byte) (s n : ℕ) (hS : ∀ a ∈ List.range' s n, S a) :
    Reads S m (InPlace.memchr s c n) (· = (List.range' s n).find? fun a => m a == c) := by
  induction n generalizing s with
  | zero => exact Reads.pure rfl
  | succ n ih =>
    rw [List.range'_succ] at hS ⊢
    obtain ⟨hs, hrest⟩ := List.forall_mem_cons.mp hS
    unfold InPlace.memchr
    refine Reads.bind_eq (Reads.load hs rfl) ?_
    rw [List.find?_cons]
    by_cases hc : m s = c
    · rw [if_pos hc, beq_iff_eq.mpr hc]
      exact Reads.pure rfl
    · rw [if_neg hc, beq_eq_false_iff_ne.mpr hc]
      exact ih (s + 1) hrest

/-- What is left in `n` and `min` when a search of the window has this result. -/
def foundAt (str : ℕ) (n : ℤ) (min : Option ℕ) : Option ℕ → ℤ × Option ℕ
  | none => (n, min)
  | some p => (p - str, some p)

theorem mempbrkWindow_le (n : ℤ) : mempbrkWindow n ≤ mempbrkCacheSize := by
  unfold mempbrkWindow mempbrkCacheSize
  split <;> omega

theorem mempbrkWindow_natCast {k : ℕ} (hk : k ≤ mempbrkCacheSize) : mempbrkWindow k = k := by
  unfold mempbrkWindow
  rw [if_neg (by omega), Int.toNat_natCast]

/-- A window is searched for the first address where a control byte stands. -/
theorem mempbrkControls_reads (str count controlPtr : ℕ) (n : ℤ) (min : Option ℕ)
    (hwindow : ∀ a ∈ List.range' str (mempbrkWindow n), S a)
    (hcontrol : ∀ a ∈ List.range' controlPtr count, S a) :
    Reads S m (mempbrkControls str count controlPtr n min)
      (· = foundAt str n min
        (firstOf m (controlBytes m controlPtr count) str (mempbrkWindow n))) := by
  induction count generalizing controlPtr n min with
  | zero =>
    rw [firstOf_eq, controlBytes, List.range'_zero, List.map_nil, first_nil]
    exact Reads.pure rfl
  | succ count ih =>
    rw [List.range'_succ] at hcontrol
    obtain ⟨hhere, hrest⟩ := List.forall_mem_cons.mp hcontrol
    rw [firstOf_eq, controlBytes, List.range'_succ, List.map_cons]
    unfold mempbrkControls
    refine Reads.bind_eq (Reads.load hhere rfl) ?_
    refine Reads.bind_eq (memchr_reads (m controlPtr) str _ hwindow) ?_
    cases hfound : (List.range' str (mempbrkWindow n)).find? fun a => m a == m controlPtr with
    | none =>
      rw [first_cons_none _ hfound]
      exact ih (controlPtr + 1) n min hwindow hrest
    | some p =>
      -- the search goes on in front of `p`
      obtain ⟨hp, front, back, hsplit, hfront⟩ := List.find?_eq_some_iff_append.mp hfound
      obtain ⟨k, hk, hrange, htail⟩ := List.range'_eq_append_iff.mp hsplit
      have hlt : k < mempbrkWindow n := by
        by_contra hge
        rw [Nat.sub_eq_zero_of_le (not_lt.mp hge)] at htail
        cases htail
      obtain ⟨j, hj⟩ := Nat.exists_eq_succ_of_ne_zero (Nat.sub_ne_zero_of_lt hlt)
      rw [hj, List.range'_succ, List.cons.injEq] at htail
      have hnone : front.find? (fun a => m a == m controlPtr) = none :=
        List.find?_eq_none.mpr fun a ha => by simpa using hfront a ha
      have hn : (p : ℤ) - str = k := by omega
      have hshort : mempbrkWindow ((p : ℤ) - str) = k := by
        rw [hn, mempbrkWindow_natCast (hlt.le.trans (mempbrkWindow_le n))]
      have hstep := ih (controlPtr + 1) (p - str) (some p) (fun a ha => hwindow a ?_) hrest
      · rw [hsplit, first_cons_some (fun c a => m a == c) (c := m controlPtr) hp hnone, hrange]
        rw [hshort, firstOf_eq] at hstep
        refine hstep.mono (fun _ ha => ha) ?_
        rintro r rfl
        unfold controlBytes
        cases first (fun c a => m a == c) ((List.range' (controlPtr + 1) count).map m)
          (List.range' str k) <;> rfl
      · rw [hsplit, hrange]
        rw [hshort] at ha
        exact List.mem_append_left _ ha

/-- The buffer is its first window and what is behind it. -/
theorem firstOf_window (bytes : Bytes) (str : ℕ) {n : ℤ} (hn : 0 < n) :
    firstOf m bytes str n.toNat = (firstOf m bytes str (mempbrkWindow n)).or
      (firstOf m bytes (str + mempbrkCacheSize) (n - mempbrkCacheSize).toNat) := by
  have hsplit : List.range' str n.toNat = List.range' str (mempbrkWindow n) ++
      List.range' (str + mempbrkCacheSize) (n - mempbrkCacheSize).toNat := by
    unfold mempbrkWindow mempbrkCacheSize
    split
    · rw [show n.toNat = 256 + (n - (256 : ℕ)).toNat by omega, ← List.range'_append_1]
      rfl
    · rw [show (n - (256 : ℕ)).toNat = 0 by omega, List.range'_zero, List.append_nil]
  rw [firstOf_eq, hsplit, first_append]
  rfl

theorem mempbrkLoop_reads {control controlLen : ℕ}
    (hcontrol : ∀ a ∈ List.range' control controlLen, S a) (fuel str : ℕ) (n : ℤ)
    (hfuel : n.toNat ≤ fuel) (hstr : ∀ a ∈ List.range' str n.toNat, S a) :
    Reads S m (mempbrkLoop control controlLen fuel str n)
      (· = firstOf m (controlBytes m control controlLen) str n.toNat) := by
  induction fuel generalizing str n with
  | zero =>
    rw [Nat.le_zero.mp hfuel]
    exact Reads.pure rfl
  | succ fuel ih =>
    unfold mempbrkLoop
    by_cases hn : n ≤ 0
    · rw [if_pos hn, Int.toNat_of_nonpos hn]
      exact Reads.pure rfl
    rw [if_neg hn, firstOf_window _ _ (not_le.mp hn)]
    have hwindow : ∀ a ∈ List.range' str (mempbrkWindow n), S a := by
      intro a ha
      refine hstr a ?_
      rw [List.mem_range'_1] at ha ⊢
      unfold mempbrkWindow mempbrkCacheSize at ha
      split at ha <;> omega
    refine Reads.bind_eq (mempbrkControls_reads str controlLen control n none hwindow hcontrol) ?_
    cases firstOf m (controlBytes m control controlLen) str (mempbrkWindow n) with
    | some p => exact Reads.pure rfl
    | none =>
      refine ih (str + mempbrkCacheSize) (n - mempbrkCacheSize) ?_ fun a ha => hstr a ?_
      · unfold mempbrkCacheSize
        omega
      · rw [List.mem_range'_1] at ha ⊢
        unfold mempbrkCacheSize at ha
        omega

/-- `kgl_mempbrk` finds what a search address by address finds, leaves the memory as it is and reads
nothing but the buffer and the control bytes. -/
structure SearchesBuffer (m : ℕ → Byte) (str : ℕ) (n : ℤ) (control controlLen : ℕ) : Prop where
  value : (run (kglMempbrk str n control controlLen) m).value =
    firstOf m (controlBytes m control controlLen) str n.toNat
  mem : (run (kglMempbrk str n control controlLen) m).mem = m
  reads : ∀ a ∈ (run (kglMempbrk str n control controlLen) m).reads,
    (str ≤ a ∧ a < str + n.toNat) ∨ (control ≤ a ∧ a < control + controlLen)

/-- `kgl_mempbrk` is the naive search. -/
theorem kglMempbrk_searchesBuffer (m : ℕ → Byte) (str : ℕ) (n : ℤ) (control controlLen : ℕ) :
    SearchesBuffer m str n control controlLen := by
  have hreads : Reads (fun a => (str ≤ a ∧ a < str + n.toNat) ∨
      (control ≤ a ∧ a < control + controlLen)) m (kglMempbrk str n control controlLen)
        (· = firstOf m (controlBytes m control controlLen) str n.toNat) := by
    refine mempbrkLoop_reads (fun a ha => .inr ?_) n.toNat str n le_rfl fun a ha => .inl ?_
    · exact List.mem_range'_1.mp ha
    · exact List.mem_range'_1.mp ha
  exact ⟨hreads.post, hreads.mem, hreads.within⟩

end Khttpd
