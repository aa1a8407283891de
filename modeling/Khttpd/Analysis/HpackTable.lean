import Mathlib.Data.List.Induction
import Mathlib.Data.List.TakeWhile
import Khttpd.Lib.BoundedQueue
import Khttpd.Model.HpackTable

/-!
# The size of the dynamic table

The ring of `kgl_http_v2_hpack_t` holds a bounded queue: `table_size` and `add_header` drop the
oldest entries until the rest has room. The room is the size that was signalled, except between
the first insertion and the next update, where it is the whole store whatever was signalled before.
-/

set_option autoImplicit false

namespace Khttpd

open BoundedQueue

namespace Hpack

/-! ## The ring -/

/-- The sizes of the entries from `lo` up to `hi`. -/
def costs (h : Hpack) (lo hi : ℕ) : List ℕ :=
    (List.range' lo (hi - lo)).map fun i => (h.entry i).cost

/-- The sizes of the live entries, the oldest first. -/
def liveCosts (h : Hpack) : List ℕ := h.costs h.deleted h.added

/-- The counters are in order, the slots of the entries that were not used again are apart, and
`free` is what the live entries leave of `size`. -/
structure Ring (h : Hpack) : Prop where
  reused_le : h.reused ≤ h.deleted
  deleted_le : h.deleted ≤ h.added
  room : h.added ≤ h.reused + h.allocated
  unused : h.entries = none → h.added = 0
  slots : h.entries ≠ none → 0 < h.allocated
  apart : ∀ i j, h.reused ≤ i → i < j → j < h.added → h.slot i ≠ h.slot j
  allocated : ∀ i, h.reused ≤ i → i < h.added → h.slot i < h.allocatedObjects
  account : h.free + h.liveCosts.sum = h.size

theorem ring_init : Ring init where
  reused_le := le_rfl
  deleted_le := le_rfl
  room := le_rfl
  unused := fun _ => rfl
  slots := fun hne => absurd rfl hne
  apart := fun _ j _ _ hj => absurd hj (Nat.not_lt_zero j)
  allocated := fun i _ hi => absurd hi (Nat.not_lt_zero i)
  account := rfl

theorem liveCosts_of_lt {h : Hpack} (hlt : h.deleted < h.added) :
    h.liveCosts = (h.entry h.deleted).cost :: h.costs (h.deleted + 1) h.added := by
  obtain ⟨n, hn⟩ := Nat.exists_eq_add_of_lt hlt
  have h1 : h.added - h.deleted = n + 1 := by omega
  have h2 : h.added - (h.deleted + 1) = n := by omega
  simp only [liveCosts, costs, h1, h2, List.range'_succ, List.map_cons]

/-! ## Eviction -/

/-- The eviction loop drops the oldest entries until the rest has room in `limit`, when that is
what `more` asks. -/
theorem evict_spec {more : ℕ → Bool} {limit total : ℕ}
    (hmore : ∀ free sum, free + sum = total → (more free = true ↔ limit < sum)) (fuel : ℕ) :
    ∀ h : Hpack, h.deleted + fuel = h.added → h.free + h.liveCosts.sum = total →
      ∃ n free, evict more fuel h = { h with deleted := n, free := free } ∧ h.deleted ≤ n ∧
        n ≤ h.added ∧ h.costs n h.added = retain limit h.liveCosts ∧
        free + (retain limit h.liveCosts).sum = total := by
  induction fuel with
  | zero =>
    intro h hfuel htotal
    have hempty : h.liveCosts = [] := by
      simp only [liveCosts, costs, ← hfuel, Nat.add_zero, Nat.sub_self]
      rfl
    refine ⟨h.deleted, h.free, rfl, le_rfl, by omega, ?_, ?_⟩
    · rw [hempty]
      exact hempty
    · rw [hempty, retain_nil, ← hempty]
      exact htotal
  | succ fuel ih =>
    intro h hfuel htotal
    unfold evict
    by_cases hlong : more h.free = true
    · rw [if_pos hlong]
      have hsum := (hmore _ _ htotal).mp hlong
      have hlive := liveCosts_of_lt (show h.deleted < h.added by omega)
      rw [hlive] at htotal hsum
      rw [hlive, retain_cons_of_lt hsum]
      rw [List.sum_cons] at htotal
      obtain ⟨n, free, heq, hlo, hhi, hcosts, hfree⟩ := ih
        { h with deleted := h.deleted + 1, free := h.free + (h.entry h.deleted).cost }
        (by dsimp only; omega) (by rw [Nat.add_assoc]; exact htotal)
      exact ⟨n, free, heq, Nat.le_of_succ_le hlo, hhi, hcosts, hfree⟩
    · rw [if_neg hlong]
      have hsum : h.liveCosts.sum ≤ limit := Nat.not_lt.mp (mt (hmore _ _ htotal).mpr hlong)
      refine ⟨h.deleted, h.free, rfl, le_rfl, by omega, ?_, ?_⟩
      · rw [retain_of_le hsum]
        rfl
      · rw [retain_of_le hsum]
        exact htotal

/-- Dropping the oldest entries keeps the ring. -/
theorem Ring.drop {h : Hpack} (hr : Ring h) {n free size : ℕ} (hlo : h.deleted ≤ n)
    (hhi : n ≤ h.added) (haccount : free + (h.costs n h.added).sum = size) :
    Ring { h with deleted := n, free := free, size := size } where
  reused_le := hr.reused_le.trans hlo
  deleted_le := hhi
  room := hr.room
  unused := hr.unused
  slots := hr.slots
  apart := hr.apart
  allocated := hr.allocated
  account := haccount

/-- An accepted update keeps the live entries that have room in the new size. -/
theorem tableSize_spec {h : Hpack} (hr : Ring h) {size : ℕ} (hsize : size ≤ tableStorageSize) :
    ∃ t, h.tableSize size = some t ∧ Ring t ∧ t.liveCosts = retain size h.liveCosts ∧
      t.size = size ∧ t.entries = h.entries := by
  have hmore : ∀ free sum, free + sum = h.size →
      (decide ((h.size : ℤ) - size > free) = true ↔ size < sum) := by
    intro free sum hsum
    rw [decide_eq_true_iff]
    omega
  obtain ⟨n, free, heq, hlo, hhi, hcosts, hfree⟩ := evict_spec hmore (h.added - h.deleted) h
    (Nat.add_sub_of_le hr.deleted_le) hr.account
  have hle := sum_retain_le size h.liveCosts
  have haccount : (free - ((h.size : ℤ) - size)).toNat + (h.costs n h.added).sum = size := by
    rw [hcosts]
    omega
  refine ⟨{ h with deleted := n, free := (free - ((h.size : ℤ) - size)).toNat, size := size },
    ?_, hr.drop hlo hhi haccount, hcosts, rfl, rfl⟩
  unfold tableSize
  rw [if_neg hsize.not_gt]
  simp only [heq]

/-! ## Insertion -/

/-- `table_account` makes room for an entry that is no larger than the table, and empties the
table for a larger one. -/
theorem tableAccount_spec {h : Hpack} (hr : Ring h) (text : ℕ) :
    ∃ n free, h.deleted ≤ n ∧ n ≤ h.added ∧
      (h.tableAccount text = ({ h with deleted := n, free := free }, true) ∧ text + 32 ≤ h.size ∧
          h.costs n h.added = retain (h.size - (text + 32)) h.liveCosts ∧
          free + (text + 32) + (h.costs n h.added).sum = h.size ∨
        h.tableAccount text = ({ h with deleted := n, free := free }, false) ∧
          h.size < text + 32 ∧ n = h.added ∧ free = h.size) := by
  have haccount := hr.account
  unfold tableAccount
  by_cases hfree : text + 32 ≤ h.free
  · have hlive : h.costs h.deleted h.added = h.liveCosts := rfl
    refine ⟨h.deleted, h.free - (text + 32), le_rfl, hr.deleted_le, Or.inl ⟨?_, by omega, ?_, ?_⟩⟩
    · exact if_pos hfree
    · rw [hlive, retain_of_le (by omega)]
    · rw [hlive]
      omega
  by_cases hsize : text + 32 > h.size
  · refine ⟨h.added, h.size, hr.deleted_le, le_rfl, Or.inr ⟨?_, hsize, rfl, rfl⟩⟩
    simp only [if_neg hfree, if_pos hsize]
  · have hmore : ∀ free sum, free + sum = h.size →
        (decide (text + 32 > free) = true ↔ h.size - (text + 32) < sum) := by
      intro free sum hsum
      rw [decide_eq_true_iff]
      omega
    obtain ⟨n, free, heq, hlo, hhi, hcosts, hsum⟩ := evict_spec hmore (h.added - h.deleted) h
      (Nat.add_sub_of_le hr.deleted_le) haccount
    have hle := sum_retain_le (h.size - (text + 32)) h.liveCosts
    refine ⟨n, free - (text + 32), hlo, hhi, Or.inl ⟨?_, by omega, hcosts, ?_⟩⟩
    · simp only [if_neg hfree, if_neg hsize, heq]
    · rw [hcosts]
      omega

/-- A table that has the room for an entry of that size, and an object for it that no entry of the
ring has. -/
structure Vacant (h : Hpack) (object cost : ℕ) : Prop where
  reused_le : h.reused ≤ h.deleted
  deleted_le : h.deleted ≤ h.added
  room : h.added ≤ h.reused + h.allocated
  full : h.added = h.reused + h.allocated → h.reused = h.deleted
  slots : h.entries ≠ none ∧ 0 < h.allocated
  apart : ∀ i j, h.reused ≤ i → i < j → j < h.added → h.slot i ≠ h.slot j
  allocated : ∀ i, h.reused ≤ i → i < h.added → h.slot i < h.allocatedObjects
  object_lt : object < h.allocatedObjects
  fresh : ∀ i, h.reused ≤ i → i < h.added → h.slot i ≠ object
  account : h.free + cost + h.liveCosts.sum = h.size

/-- The object that an insertion writes to is a new one or the oldest of the evicted ones. -/
theorem takeObject_spec {h : Hpack} (hr : Ring h) (hused : h.entries ≠ none) {n free cost : ℕ}
    (hlo : h.deleted ≤ n) (hhi : n ≤ h.added)
    (haccount : free + cost + (h.costs n h.added).sum = h.size) :
    ∃ t object, ({ h with deleted := n, free := free } : Hpack).takeObject = (t, object) ∧
      Vacant t object cost ∧ t.liveCosts = h.costs n h.added ∧ t.size = h.size := by
  have hreused := hr.reused_le
  have hroom := hr.room
  unfold takeObject
  by_cases hnew : h.reused = n
  · refine ⟨_, _, if_pos hnew, ⟨hnew.le, hhi, hroom, fun _ => hnew, ⟨hused, hr.slots hused⟩,
      hr.apart, ?_, Nat.lt_succ_self _, ?_, haccount⟩, rfl, rfl⟩
    · intro i hi hadded
      exact Nat.lt_succ_of_lt (hr.allocated i hi hadded)
    · intro i hi hadded
      exact (hr.allocated i hi hadded).ne
  · have hlt : h.reused < n := by omega
    refine ⟨{ h with deleted := n, free := free, reused := h.reused + 1 }, h.slot h.reused,
      if_neg hnew, ?_, rfl, rfl⟩
    refine ⟨hlt, hhi, ?_, ?_, ⟨hused, hr.slots hused⟩, ?_, ?_, ?_, ?_, haccount⟩
    · dsimp only
      omega
    · dsimp only
      omega
    · intro i j hi
      exact hr.apart i j (Nat.le_of_succ_le hi)
    · intro i hi
      exact hr.allocated i (Nat.le_of_succ_le hi)
    · exact hr.allocated h.reused le_rfl (by omega)
    · intro i hi hadded
      exact (hr.apart h.reused i le_rfl hi hadded).symm

/-- Writing the object of an insertion changes no live entry. -/
theorem Vacant.write {h : Hpack} {object cost : ℕ} (hv : Vacant h object cost) (e : HpackEntry)
    (storage : ℕ → Byte) (pos : ℕ) :
    let t := { h with
      objects := Function.update h.objects object e, storage := storage, pos := pos }
    Vacant t object cost ∧ t.liveCosts = h.liveCosts := by
  intro t
  have hlive : t.liveCosts = h.liveCosts := by
    refine List.map_congr_left ?_
    intro i hi
    obtain ⟨hdeleted, hadded⟩ := List.mem_range'_1.mp hi
    have hlt : i < h.added := by
      have hle := hv.deleted_le
      dsimp only [t] at hadded
      omega
    have hne := hv.fresh i (hv.reused_le.trans hdeleted) hlt
    show (Function.update h.objects object e (h.slot i)).cost = (h.objects (h.slot i)).cost
    rw [Function.update_of_ne hne]
  refine ⟨⟨hv.reused_le, hv.deleted_le, hv.room, hv.full, hv.slots, hv.apart, hv.allocated,
    hv.object_lt, hv.fresh, ?_⟩, hlive⟩
  rw [hlive]
  exact hv.account

/-- The slots of a grown ring are those of the full one, the oldest first. -/
theorem slot_grow {h : Hpack} (hfull : h.allocated = h.added - h.deleted) (hslots : 0 < h.allocated)
    {i : ℕ} (hi : i < h.allocated) : h.grow.slot i = h.slot (h.deleted + i) := by
  have hindex := Nat.mod_lt h.deleted hslots
  have hmod : i % (h.allocated + 64) = i := Nat.mod_eq_of_lt (by omega)
  have hold : (h.deleted + i) % h.allocated =
      if i < h.allocated - h.deleted % h.allocated then h.deleted % h.allocated + i
      else i - (h.allocated - h.deleted % h.allocated) := by
    rw [← Nat.mod_add_mod]
    split
    · exact Nat.mod_eq_of_lt (by omega)
    · rw [Nat.mod_eq_sub_mod (by omega), Nat.mod_eq_of_lt (by omega)]
      omega
  unfold grow slot
  rw [if_pos hfull]
  cases h.entries with
  | none => rfl
  | some old =>
    simp only [Option.map_some, hmod, hold, if_pos hi]
    exact (apply_ite old _ _ _).symm

/-- Growing a full ring makes room for one entry more and keeps the live ones. -/
theorem Vacant.grow {h : Hpack} {object cost : ℕ} (hv : Vacant h object cost) :
    Vacant h.grow object cost ∧ h.grow.added < h.grow.reused + h.grow.allocated ∧
      h.grow.liveCosts = h.liveCosts ∧ h.grow.objects = h.objects ∧ h.grow.size = h.size := by
  have hreused := hv.reused_le
  have hdeleted := hv.deleted_le
  have hroom := hv.room
  by_cases hfull : h.allocated = h.added - h.deleted
  · have heq : h.reused = h.deleted := hv.full (by omega)
    have hslot : ∀ i, i < h.allocated → h.grow.slot i = h.slot (h.deleted + i) :=
      fun i hi => slot_grow hfull hv.slots.2 hi
    have hgrow : h.grow.added = h.allocated ∧ h.grow.deleted = 0 ∧ h.grow.reused = 0 ∧
        h.grow.allocated = h.allocated + 64 ∧ h.grow.objects = h.objects ∧
        h.grow.allocatedObjects = h.allocatedObjects ∧ h.grow.size = h.size ∧
        h.grow.free = h.free ∧ (h.grow.entries = none → h.entries = none) := by
      unfold Hpack.grow
      rw [if_pos hfull]
      exact ⟨rfl, rfl, rfl, rfl, rfl, rfl, rfl, rfl, Option.map_eq_none_iff.mp⟩
    obtain ⟨hadded, hdel, hreu, hall, hobj, hcount, hsize, hfree, hent⟩ := hgrow
    have hlive : h.grow.liveCosts = h.liveCosts := by
      unfold liveCosts costs
      rw [hadded, hdel, Nat.sub_zero, ← hfull, ← Nat.add_zero h.deleted, ← List.map_add_range',
        List.map_map]
      refine List.map_congr_left ?_
      intro i hi
      have hi := (List.mem_range'_1.mp hi).2
      rw [Nat.zero_add] at hi
      show (h.grow.objects (h.grow.slot i)).cost = (h.objects (h.slot (h.deleted + i))).cost
      rw [hobj, hslot i hi]
    refine ⟨⟨?_, ?_, ?_, ?_, ?_, ?_, ?_, ?_, ?_, ?_⟩, ?_, hlive, hobj, hsize⟩
    · omega
    · omega
    · omega
    · omega
    · exact ⟨mt hent hv.slots.1, by omega⟩
    · intro i j _ hij hj
      rw [hslot i (by omega), hslot j (by omega)]
      exact hv.apart _ _ (by omega) (by omega) (by omega)
    · intro i _ hi
      rw [hslot i (by omega), hcount]
      exact hv.allocated _ (by omega) (by omega)
    · rw [hcount]
      exact hv.object_lt
    · intro i _ hi
      rw [hslot i (by omega)]
      exact hv.fresh _ (by omega) (by omega)
    · rw [hlive, hfree, hsize]
      exact hv.account
    · omega
  · have hgrow : h.grow = h := if_neg hfull
    rw [hgrow]
    refine ⟨hv, ?_, rfl, rfl, rfl⟩
    have := hv.full
    omega

/-- Slots that are less than a lap apart are different ones. -/
theorem mod_ne_mod {i j n : ℕ} (hij : i < j) (hj : j < i + n) : i % n ≠ j % n := by
  intro h
  have hmod := Nat.sub_mod_eq_zero_of_mod_eq h.symm
  rw [Nat.mod_eq_of_lt (by omega)] at hmod
  omega

/-- The entry that an insertion writes behind the live ones. -/
theorem Vacant.put {h : Hpack} {object cost : ℕ} (hv : Vacant h object cost)
    (hroom : h.added < h.reused + h.allocated) (hcost : (h.objects object).cost = cost) :
    let t := { h with
      entries := h.entries.map fun e => Function.update e (h.added % h.allocated) object
      added := h.added + 1 }
    Ring t ∧ t.entries ≠ none ∧ t.liveCosts = h.liveCosts ++ [cost] := by
  intro t
  have hreused := hv.reused_le
  have hdeleted := hv.deleted_le
  have hsome : t.entries ≠ none := mt Option.map_eq_none_iff.mp hv.slots.1
  obtain ⟨e, he⟩ := Option.ne_none_iff_exists'.mp hv.slots.1
  have hslot : ∀ i, t.slot i =
    Function.update e (h.added % h.allocated) object (i % h.allocated) := by
    intro i
    simp only [t, slot, he, Option.map_some]
  have hold : ∀ i, h.reused ≤ i → i < h.added → t.slot i = h.slot i := by
    intro i hi hadded
    rw [hslot, Function.update_of_ne (mod_ne_mod hadded (by omega))]
    simp only [slot, he]
  have hlast : t.slot h.added = object := by
    rw [hslot, Function.update_self]
  have hlive : t.liveCosts = h.liveCosts ++ [cost] := by
    have hlen : t.added - t.deleted = h.added - h.deleted + 1 := by
      dsimp only [t]
      omega
    unfold liveCosts costs
    rw [hlen, List.range'_1_concat, List.map_append, List.map_singleton]
    refine congrArg₂ _ (List.map_congr_left ?_) ?_
    · intro i hi
      obtain ⟨hlo, hhi⟩ := List.mem_range'_1.mp hi
      show (h.objects (t.slot i)).cost = (h.objects (h.slot i)).cost
      rw [hold i (hreused.trans hlo) (by dsimp only [t] at hhi; omega)]
    · have hend : t.deleted + (h.added - h.deleted) = h.added := Nat.add_sub_of_le hdeleted
      show [(h.objects (t.slot (t.deleted + (h.added - h.deleted)))).cost] = [cost]
      rw [hend, hlast, hcost]
  refine ⟨⟨hreused, by dsimp only [t]; omega, by dsimp only [t]; omega, ?_, ?_, ?_, ?_, ?_⟩,
    hsome, hlive⟩
  · intro hnone
    exact absurd hnone hsome
  · intro _
    exact hv.slots.2
  · intro i j hi hij hj
    rw [hold i hi (by dsimp only [t] at hj; omega)]
    rcases Nat.lt_succ_iff_lt_or_eq.mp hj with hj | rfl
    · rw [hold j (by dsimp only [t] at hi; omega) hj]
      exact hv.apart i j hi hij hj
    · rw [hlast]
      exact hv.fresh i hi hij
  · intro i hi hadded
    rcases Nat.lt_succ_iff_lt_or_eq.mp hadded with hlt | rfl
    · rw [hold i hi hlt]
      exact hv.allocated i hi hlt
    · rw [hlast]
      exact hv.object_lt
  · have haccount := hv.account
    rw [hlive, List.sum_append, List.sum_singleton]
    dsimp only [t]
    omega

/-- The table is allocated with the size of the whole store. -/
theorem alloc_spec {h : Hpack} (hr : Ring h) :
    Ring h.alloc ∧ h.alloc.entries ≠ none ∧ h.alloc.liveCosts = h.liveCosts ∧
      h.alloc.size = if h.entries = none then tableStorageSize else h.size := by
  unfold alloc
  cases hentries : h.entries with
  | some e => exact ⟨hr, by rw [hentries]; exact Option.some_ne_none e, rfl, rfl⟩
  | none =>
    have hadded := hr.unused hentries
    have hdeleted := hr.deleted_le
    have hreused := hr.reused_le
    have hempty : ∀ t : Hpack, t.added = h.added → t.liveCosts = [] := by
      intro t ht
      have hlen : t.added - t.deleted = 0 := by omega
      simp only [liveCosts, costs, hlen]
      rfl
    dsimp only
    refine ⟨⟨hreused, hdeleted, ?_, ?_, ?_, ?_, ?_, ?_⟩, Option.some_ne_none _, ?_, rfl⟩
    · dsimp only
      omega
    · intro hnone
      cases hnone
    · intro _
      exact Nat.zero_lt_succ 63
    · intro i j _ _ hj
      dsimp only at hj
      omega
    · intro i _ hi
      dsimp only at hi
      omega
    · simp only [hempty, List.sum_nil, Nat.add_zero]
    · simp only [hempty]

/-- What an entry of this name and value takes. -/
def insertCost (name value : Bytes) : ℕ := 32 + name.length + value.length

/-- An insertion appends an entry to the queue, which has the room of the allocated table. -/
theorem addHeader_spec {h : Hpack} (hr : Ring h) (name value : Bytes) :
    Ring (h.addHeader name value) ∧ (h.addHeader name value).entries ≠ none ∧
      (h.addHeader name value).liveCosts =
        retain h.alloc.size (h.liveCosts ++ [insertCost name value]) ∧
      (h.addHeader name value).size = h.alloc.size := by
  obtain ⟨hralloc, hused, hlive, -⟩ := alloc_spec hr
  obtain ⟨n, free, hlo, hhi, hcase⟩ := tableAccount_spec hralloc (name.length + value.length)
  rw [← hlive]
  have htext : name.length + value.length + 32 = insertCost name value := by
    unfold insertCost
    omega
  rw [htext] at hcase
  unfold addHeader
  rcases hcase with ⟨heq, hfits, hcosts, haccount⟩ | ⟨heq, hlong, rfl, rfl⟩
  · obtain ⟨t, object, htake, hv, htlive, htsize⟩ := takeObject_spec hralloc hused hlo hhi haccount
    simp only [heq, htake]
    generalize copyWrapped t.storage t.pos (tableStorageSize - t.pos) name = first
    generalize copyWrapped first.1 first.2 _ value = second
    obtain ⟨hwritten, hwlive⟩ :=
      hv.write ⟨name.length, t.pos, value.length, first.2⟩ second.1 second.2
    obtain ⟨hgrown, hroom, hglive, hgobjects, hgsize⟩ := hwritten.grow
    have hcost : (Function.update t.objects object
        ⟨name.length, t.pos, value.length, first.2⟩ object).cost = insertCost name value := by
      rw [Function.update_self]
      rfl
    obtain ⟨hring, hsome, hput⟩ :=
      hgrown.put hroom ((congrArg (fun o => (o object).cost) hgobjects).trans hcost)
    refine ⟨hring, hsome, ?_, hgsize.trans htsize⟩
    rw [hput, hglive, hwlive, htlive, hcosts, retain_concat_of_le _ hfits]
  · simp only [heq]
    have hempty : h.alloc.costs h.alloc.added h.alloc.added = [] := by
      simp only [costs, Nat.sub_self]
      rfl
    refine ⟨hralloc.drop hralloc.deleted_le le_rfl ?_, hused, ?_, trivial⟩
    · rw [hempty]
      rfl
    · rw [retain_concat_of_lt _ hlong]
      exact hempty

end Hpack

/-! ## Runs of the table -/

/-- What a header block does to the table. A larger update ends the connection. -/
inductive TableOp
  | sizeUpdate (size : ℕ) (accepted : size ≤ tableStorageSize)
  | insert (name value : Bytes)

namespace TableOp

def isUpdate : TableOp → Bool
  | .sizeUpdate .. => true
  | .insert .. => false

/-- What an insertion adds to the queue. -/
def cost : TableOp → ℕ
  | .sizeUpdate .. => 0
  | .insert name value => Hpack.insertCost name value

/-- The limit behind an operation. -/
def limit (old : ℕ) : TableOp → ℕ
  | .sizeUpdate size _ => size
  | .insert .. => old

/-- The most recently signalled size. -/
def signalled (ops : List TableOp) : ℕ := ops.foldl limit tableStorageSize

/-- Insertions signal nothing. -/
theorem foldl_limit_inserts {ops : List TableOp}
    (hops : ∀ op ∈ ops, op.isUpdate = false) (old : ℕ) :
    ops.foldl limit old = old := by
  induction ops with
  | nil => rfl
  | cons op ops ih =>
    have hop := hops op List.mem_cons_self
    cases op with
    | sizeUpdate size accepted => cases hop
    | insert name value => exact ih fun op hop => hops op (List.mem_cons_of_mem _ hop)

end TableOp

open TableOp

namespace Hpack

/-- The table behind an operation. -/
def step (h : Hpack) : TableOp → Hpack
  | .sizeUpdate size _ => (h.tableSize size).getD h
  | .insert name value => h.addHeader name value

/-- The table after a list of operations. -/
def runOps (ops : List TableOp) : Hpack := ops.foldl step init

/-- After each operation the live entries have room in the signalled size, and `free` is what they
leave of `size` once the table is in use. -/
def RespectsLimit (ops : List TableOp) : Prop :=
  ∀ done, done <+: ops →
    (runOps done).liveCosts.sum ≤ signalled done ∧
      ((runOps done).entries ≠ none → (runOps done).free + (runOps done).liveCosts.sum =
        (runOps done).size)

/-- The insertions from the first one to the next update. -/
def firstInserts (ops : List TableOp) : List TableOp :=
  (ops.dropWhile isUpdate).takeWhile fun op => !op.isUpdate

/-- No stretch of the first insertions is larger than the size that was signalled before them and
still has room in the store. -/
def FitsFirstSize (ops : List TableOp) : Prop :=
  ∀ stretch, stretch <:+: firstInserts ops →
    (stretch.map cost).sum ≤ signalled (ops.takeWhile isUpdate) ∨
      tableStorageSize < (stretch.map cost).sum

/-- An update keeps what has room in the new size. -/
theorem step_sizeUpdate {h : Hpack} (hr : Ring h) {size : ℕ} (accepted : size ≤ tableStorageSize) :
    Ring (h.step (.sizeUpdate size accepted)) ∧
      (h.step (.sizeUpdate size accepted)).size = size ∧
      (h.step (.sizeUpdate size accepted)).entries = h.entries := by
  obtain ⟨t, ht, hring, -, hsize, hentries⟩ := tableSize_spec hr accepted
  have hstep : h.step (.sizeUpdate size accepted) = t := by
    simp only [step, ht, Option.getD_some]
  rw [hstep]
  exact ⟨hring, hsize, hentries⟩

/-- An operation keeps the ring. -/
theorem Ring.step {h : Hpack} (hr : Ring h) (op : TableOp) : Ring (h.step op) := by
  cases op with
  | sizeUpdate size accepted => exact (step_sizeUpdate hr accepted).1
  | insert name value => exact (addHeader_spec hr name value).1

theorem ring_runOps (ops : List TableOp) : Ring (runOps ops) := by
  induction ops using List.reverseRecOn with
  | nil => exact ring_init
  | append_singleton ops op ih =>
    unfold runOps
    rw [List.foldl_append]
    exact ih.step op

/-- A table out of use has no entries. -/
theorem Ring.liveCosts_unused {h : Hpack} (hr : Ring h) (hunused : h.entries = none) :
    h.liveCosts = [] := by
  have hadded := hr.unused hunused
  simp only [liveCosts, costs, hadded, Nat.zero_sub]
  rfl

/-- Updates alone leave the table out of use. -/
theorem updates_unused {ops : List TableOp} (hops : ∀ op ∈ ops, op.isUpdate = true) :
    (runOps ops).entries = none := by
  induction ops using List.reverseRecOn with
  | nil => rfl
  | append_singleton ops op ih =>
    have hop := hops op (List.mem_append_right _ List.mem_cons_self)
    have hrest := ih fun op hop => hops op (List.mem_append_left _ hop)
    cases op with
    | insert name value => cases hop
    | sizeUpdate size accepted =>
      unfold runOps
      rw [List.foldl_append]
      exact (step_sizeUpdate (ring_runOps ops) accepted).2.2.trans hrest

/-- Once the table in use has the signalled size, it keeps to it. -/
theorem keeps_size {h : Hpack} (hr : Ring h) (hused : h.entries ≠ none) {limit : ℕ}
    (hsize : h.size = limit) (ops : List TableOp) :
    (ops.foldl step h).size = ops.foldl TableOp.limit limit := by
  induction ops generalizing h limit with
  | nil => exact hsize
  | cons op ops ih =>
    cases op with
    | sizeUpdate size accepted =>
      obtain ⟨hring, hnew, hentries⟩ := step_sizeUpdate hr accepted
      exact ih hring (hentries ▸ hused) hnew
    | insert name value =>
      obtain ⟨hring, hsome, -, hnew⟩ := addHeader_spec hr name value
      have halloc := (alloc_spec hr).2.2.2
      rw [if_neg hused] at halloc
      exact ih hring hsome ((hnew.trans halloc).trans hsize)

/-- Insertions leave the longest stretch of them that has room in the store. -/
theorem inserts_retain {h : Hpack} (hr : Ring h) (hsize : h.alloc.size = tableStorageSize)
    {ops : List TableOp} (hops : ∀ op ∈ ops, op.isUpdate = false) :
    (ops.foldl step h).liveCosts = retain tableStorageSize (h.liveCosts ++ ops.map cost) ∧
      (ops ≠ [] → (ops.foldl step h).entries ≠ none) := by
  induction ops generalizing h with
  | nil =>
    obtain ⟨hring, -, hlive, -⟩ := alloc_spec hr
    have haccount := hring.account
    rw [hlive, hsize] at haccount
    rw [List.map_nil, List.append_nil, retain_of_le (by omega)]
    exact ⟨rfl, fun hne => absurd rfl hne⟩
  | cons op ops ih =>
    have hop := hops op List.mem_cons_self
    cases op with
    | sizeUpdate size accepted => cases hop
    | insert name value =>
      obtain ⟨hring, hused, hlive, hnew⟩ := addHeader_spec hr name value
      have halloc := (alloc_spec hring).2.2.2
      rw [if_neg hused, hnew, hsize] at halloc
      obtain ⟨hrest, hkept⟩ := ih hring halloc fun op hop => hops op (List.mem_cons_of_mem _ hop)
      rw [hlive, hsize, retain_retain_append, List.append_assoc] at hrest
      refine ⟨hrest, fun _ => ?_⟩
      by_cases hnil : ops = []
      · subst hnil
        exact hused
      · exact hkept hnil

/-- The table after leading updates and some insertions. -/
theorem liveCosts_firstInserts {updates inserts : List TableOp}
    (hupdates : ∀ op ∈ updates, op.isUpdate = true)
      (hinserts : ∀ op ∈ inserts, op.isUpdate = false) :
    (runOps (updates ++ inserts)).liveCosts = retain tableStorageSize (inserts.map cost) ∧
      (inserts ≠ [] → (runOps (updates ++ inserts)).entries ≠ none) ∧
      signalled (updates ++ inserts) = signalled updates := by
  have hring := ring_runOps updates
  have hunused := updates_unused hupdates
  have halloc := (alloc_spec hring).2.2.2
  rw [if_pos hunused] at halloc
  obtain ⟨hlive, hused⟩ := inserts_retain hring halloc hinserts
  rw [hring.liveCosts_unused hunused, List.nil_append] at hlive
  unfold runOps signalled at *
  rw [List.foldl_append, List.foldl_append]
  exact ⟨hlive, hused, foldl_limit_inserts hinserts _⟩

/-- After an update in use the entries have room in the signalled size. -/
theorem sum_le_signalled {front : List TableOp} (hused : (runOps front).entries ≠ none) {size : ℕ}
    (accepted : size ≤ tableStorageSize) (back : List TableOp) :
    (runOps (front ++ .sizeUpdate size accepted :: back)).liveCosts.sum ≤
      signalled (front ++ .sizeUpdate size accepted :: back) := by
  obtain ⟨hring, hsize, hentries⟩ := step_sizeUpdate (ring_runOps front) accepted
  have hkept := keeps_size hring (hentries ▸ hused) hsize back
  have haccount := (ring_runOps (front ++ .sizeUpdate size accepted :: back)).account
  have hrun : (runOps (front ++ .sizeUpdate size accepted :: back)).size =
      signalled (front ++ .sizeUpdate size accepted :: back) := by
    unfold runOps signalled at *
    rw [List.foldl_append, List.foldl_append]
    exact hkept
  omega

/-- What is left of the first insertions is a stretch of them. -/
theorem retain_stretch {ops few : List TableOp} (hfits : FitsFirstSize ops)
    (hfew : few <+: firstInserts ops) :
    (retain tableStorageSize (few.map cost)).sum ≤ signalled (ops.takeWhile isUpdate) := by
  obtain ⟨n, hdrop⟩ : ∃ n, retain tableStorageSize (few.map cost) = (few.drop n).map cost := by
    have hsuffix := List.suffix_iff_eq_drop.mp (retain_suffix tableStorageSize (few.map cost))
    rw [← List.map_drop] at hsuffix
    exact ⟨_, hsuffix⟩
  have hmax := sum_retain_le tableStorageSize (few.map cost)
  rw [hdrop] at hmax ⊢
  have hstretch := hfits (few.drop n) ((List.drop_suffix n few).isInfix.trans hfew.isInfix)
  exact hstretch.resolve_right hmax.not_gt

/-- What comes behind the first insertions is an update, and there are insertions before it. -/
theorem update_behind {ops more : List TableOp} {op : TableOp}
    (h : ops.dropWhile isUpdate = firstInserts ops ++ op :: more) :
    op.isUpdate = true ∧ firstInserts ops ≠ [] := by
  have hrest : (ops.dropWhile isUpdate).dropWhile (fun op => !op.isUpdate) = op :: more := by
    have hboth := List.takeWhile_append_dropWhile (p := fun op => !op.isUpdate)
      (l := ops.dropWhile isUpdate)
    exact List.append_cancel_left (hboth.trans h)
  have hop : op.isUpdate = true := by
    have hhead := List.head?_dropWhile_not (fun op => !op.isUpdate) (ops.dropWhile isUpdate)
    rw [hrest] at hhead
    simpa using hhead
  refine ⟨hop, fun hnil => ?_⟩
  have hhead := List.head?_dropWhile_not isUpdate ops
  rw [h, hnil] at hhead
  simp [hop] at hhead

/-- The dynamic table respects the signalled limit exactly when no stretch of the first insertions
outgrows the size that was signalled before them. -/
theorem respectsLimit_iff (ops : List TableOp) : RespectsLimit ops ↔ FitsFirstSize ops := by
  have hupdates : ∀ op ∈ ops.takeWhile isUpdate, op.isUpdate = true :=
    fun op hop => List.mem_takeWhile_imp hop
  have hinserts : ∀ op ∈ firstInserts ops, op.isUpdate = false :=
    fun op hop => by simpa using List.mem_takeWhile_imp hop
  have hsplit : ops.takeWhile isUpdate ++ ops.dropWhile isUpdate = ops :=
    List.takeWhile_append_dropWhile
  constructor
  · rintro h stretch ⟨front, back, hstretch⟩
    have hfront : front ++ stretch <+: firstInserts ops := ⟨back, hstretch⟩
    have hprefix : ops.takeWhile isUpdate ++ (front ++ stretch) <+: ops := by
      conv_rhs => rw [← hsplit]
      exact (List.prefix_append_right_inj _).mpr (hfront.trans (List.takeWhile_prefix _))
    obtain ⟨hlive, -, hsignalled⟩ := liveCosts_firstInserts hupdates
      fun op hop => hinserts op (hfront.subset hop)
    have hsum := (h _ hprefix).1
    rw [hlive, hsignalled] at hsum
    by_contra hnot
    rw [not_or] at hnot
    have hsuffix : stretch.map cost <:+ retain tableStorageSize ((front ++ stretch).map cost) := by
      refine suffix_retain ?_ (Nat.not_lt.mp hnot.2)
      rw [List.map_append]
      exact List.suffix_append _ _
    exact hnot.1 ((sum_suffix_le hsuffix).trans hsum)
  · intro h done hdone
    refine ⟨?_, fun _ => (ring_runOps done).account⟩
    have hcase := List.prefix_or_prefix_of_prefix hdone (List.takeWhile_prefix isUpdate)
    rcases hcase with hshort | ⟨later, rfl⟩
    · have hempty := (ring_runOps done).liveCosts_unused
        (updates_unused fun op hop => hupdates op (hshort.subset hop))
      rw [hempty]
      exact Nat.zero_le _
    · have hlater : later <+: ops.dropWhile isUpdate := by
        have hwhole : ops.takeWhile isUpdate ++ later <+:
            ops.takeWhile isUpdate ++ ops.dropWhile isUpdate := by
          rw [hsplit]
          exact hdone
        exact (List.prefix_append_right_inj _).mp hwhole
      have hfew : ∀ few, few <+: firstInserts ops →
          (runOps (ops.takeWhile isUpdate ++ few)).liveCosts.sum ≤
            signalled (ops.takeWhile isUpdate ++ few) := by
        intro few hfew
        obtain ⟨hlive, -, hsignalled⟩ := liveCosts_firstInserts hupdates
          fun op hop => hinserts op (hfew.subset hop)
        rw [hlive, hsignalled]
        exact retain_stretch h hfew
      have hcase := List.prefix_or_prefix_of_prefix hlater
        (List.takeWhile_prefix fun op => !op.isUpdate)
      rcases hcase with hshort | ⟨rest, rfl⟩
      · exact hfew later hshort
      cases rest with
      | nil =>
        rw [List.append_nil]
        exact hfew _ List.prefix_rfl
      | cons op rest =>
        obtain ⟨more, hmore⟩ := hlater
        rw [List.append_assoc, List.cons_append] at hmore
        obtain ⟨hop, hne⟩ := update_behind hmore.symm
        have hused := (liveCosts_firstInserts hupdates hinserts).2.1 hne
        cases op with
        | insert name value => cases hop
        | sizeUpdate size accepted =>
          have hsum := sum_le_signalled hused accepted rest
          rw [List.append_assoc] at hsum
          exact hsum

/-- An update to 0 before the first insertion is forgotten. -/
theorem updateFirst_not_respectsLimit :
    ¬RespectsLimit [.sizeUpdate 0 (Nat.zero_le _), .insert [] []] := by
  intro h
  have hsum := (h _ List.prefix_rfl).1
  exact absurd hsum (by decide)

end Hpack

end Khttpd
