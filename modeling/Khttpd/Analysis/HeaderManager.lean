import Mathlib.Data.List.Perm.Subperm
import Mathlib.Data.List.TakeWhile
import Khttpd.Lib.LinkedList
import Khttpd.Model.HeaderManager

/-!
# The header manager as a list

What a manager is for: a list of headers that grows at both ends, loses the headers that a callback
or a name picks, and is handed over as a whole. A manager represents such a list while its head
pointer starts the chain of the headers and its tail pointer is the last of them. Only `remove`
can break this: it leaves the tail pointer on the header before the one it takes out.
-/

set_option autoImplicit false

namespace Khttpd

open LinkedList KHttpHeaderManager

/-! ## Lists of headers -/

/-- The headers in their order, what is known of each, how many there were and which are freed. -/
structure HeaderList where
  headers : List ℕ
  av : ℕ → KHttpHeader
  count : ℕ
  freed : List ℕ

namespace HeaderList

/-- No header. -/
def init : HeaderList := ⟨[], fun _ => ⟨false, 0, []⟩, 0, []⟩

variable (headerTypeString : ℕ → Bytes)

/-- The header at an address has the name. -/
def named (l : HeaderList) (attr : Bytes) (a : ℕ) : Bool :=
  (l.av a).isAttr headerTypeString attr

/-- What an operation is for, and the header it should return. -/
def step (l : HeaderList) : Op → HeaderList × Option ℕ
  | .insert av =>
    ({ l with
        headers := l.headers ++ [l.count]
        av := Function.update l.av l.count av
        count := l.count + 1 }, some l.count)
  | .append av =>
    ({ l with
        headers := l.count :: l.headers
        av := Function.update l.av l.count av
        count := l.count + 1 }, some l.count)
  | .iterator it =>
    ({ l with
        headers := l.headers.filter fun a => it a = .continue
        freed := l.freed ++ l.headers.filter fun a => it a = .free }, none)
  | .remove attr =>
    ({ l with headers := l.headers.eraseP (l.named headerTypeString attr) },
      l.headers.find? (l.named headerTypeString attr))
  | .stealHeader => ({ l with headers := [] }, l.headers.head?)

/-- A series of operations. -/
def run : HeaderList → List Op → HeaderList × List (Option ℕ)
  | l, [] => (l, [])
  | l, op :: ops =>
    let r := l.step headerTypeString op
    let r' := run r.1 ops
    (r'.1, r.2 :: r'.2)

/-- A `remove` that finds a header finds the last one. -/
def RemovesLast (l : HeaderList) (attr : Bytes) : Prop :=
  ∀ a, l.headers.find? (l.named headerTypeString attr) = some a → l.headers.getLast? = some a

end HeaderList

/-! ## Managers that represent a list -/

namespace KHttpHeaderManager

/-- The manager is the list: `last` is the final node of the chain from `header` on. -/
structure Represents (m : KHttpHeaderManager) (l : HeaderList) : Prop where
  chain : Chain m.next m.header l.headers
  last : m.last = l.headers.getLast?
  av : m.av = l.av
  count : m.count = l.count
  freed : m.freed = l.freed
  old : ∀ a ∈ l.headers, a < l.count

theorem represents_init : init.Represents .init where
  chain := rfl
  last := rfl
  av := rfl
  count := rfl
  freed := rfl
  old := by simp [HeaderList.init]

variable {m : KHttpHeaderManager} {l : HeaderList} {k r : List ℕ} {a : ℕ}

/-- The head pointer is null where there is no header only. -/
theorem Represents.header_eq_none (h : m.Represents l) : m.header = none ↔ l.headers = [] := by
  rw [h.chain.start_eq, List.head?_eq_none_iff]

/-- A list is not longer than the number of headers. -/
theorem Represents.length_le (h : m.Represents l) : l.headers.length ≤ l.count := by
  have hsub : l.headers ⊆ List.range l.count := fun a ha => List.mem_range.mpr (h.old a ha)
  have hlen := (List.subperm_of_subset h.chain.nodup hsub).length_le
  simpa using hlen

/-- The allocation of a header keeps the list. -/
theorem Represents.newHeader (h : m.Represents l) (av : KHttpHeader) :
    Chain (m.newHeader av).next m.header l.headers ∧ m.count ∉ l.headers := by
  have hnew : m.count ∉ l.headers := fun hmem => by
    have := h.old _ hmem
    rw [h.count] at this
    omega
  exact ⟨h.chain.update hnew none, hnew⟩

theorem represents_insert (headerTypeString : ℕ → Bytes) (h : m.Represents l) (av : KHttpHeader) :
    ∃ m', m.step headerTypeString (.insert av) = some (m', some l.count) ∧
      m'.Represents (l.step headerTypeString (.insert av)).1 := by
  obtain ⟨hchain, hnew⟩ := h.newHeader av
  have hnext : (m.newHeader av).next m.count = none := by simp [KHttpHeaderManager.newHeader]
  have hold : ∀ b ∈ l.headers ++ [l.count], b < l.count + 1 := by
    intro b hb
    rcases List.mem_append.mp hb with hb | hb
    · exact Nat.lt_succ_of_lt (h.old b hb)
    · rw [List.mem_singleton.mp hb]
      omega
  rcases List.eq_nil_or_concat' l.headers with hnil | ⟨k, a, hk⟩
  · have hhead : m.header = none := h.header_eq_none.mpr hnil
    refine ⟨{ m.newHeader av with header := some m.count, last := some m.count }, ?_, ?_⟩
    · simp [step, insert, KHttpHeaderManager.newHeader, hhead, h.count]
    · exact {
        chain := by
          show Chain (m.newHeader av).next (some m.count) (l.headers ++ [l.count])
          rw [hnil, ← h.count]
          exact ⟨rfl, hnext⟩
        last := by simp [HeaderList.step, h.count]
        av := by simp [HeaderList.step, KHttpHeaderManager.newHeader, h.av, h.count]
        count := by simp [HeaderList.step, KHttpHeaderManager.newHeader, h.count]
        freed := h.freed
        old := hold }
  · have hhead : m.header ≠ none := fun hnone => by simp [h.header_eq_none.mp hnone] at hk
    have hlast : m.last = some a := by rw [h.last, hk, List.getLast?_concat]
    refine ⟨{ m.newHeader av with
      next := Function.update (m.newHeader av).next a (some m.count), last :=
        some m.count }, ?_, ?_⟩
    · simp [step, insert, KHttpHeaderManager.newHeader, hhead, hlast, h.count]
    · rw [hk] at hchain hnew
      exact {
        chain := by
          show Chain _ m.header (l.headers ++ [l.count])
          rw [hk, ← h.count]
          exact hchain.insert_last hnew hnext
        last := by simp [HeaderList.step, h.count]
        av := by simp [HeaderList.step, KHttpHeaderManager.newHeader, h.av, h.count]
        count := by simp [HeaderList.step, KHttpHeaderManager.newHeader, h.count]
        freed := h.freed
        old := hold }

theorem represents_append (headerTypeString : ℕ → Bytes) (h : m.Represents l) (av : KHttpHeader) :
    ∃ m', m.step headerTypeString (.append av) = some (m', some l.count) ∧
      m'.Represents (l.step headerTypeString (.append av)).1 := by
  obtain ⟨hchain, hnew⟩ := h.newHeader av
  refine ⟨(m.newHeader av).append m.count, by simp [step, h.count], ?_⟩
  have hold : ∀ b ∈ l.count :: l.headers, b < l.count + 1 := by
    intro b hb
    rcases List.mem_cons.mp hb with rfl | hb
    · omega
    · exact Nat.lt_succ_of_lt (h.old b hb)
  by_cases hhead : m.header = none
  · have hnil := h.header_eq_none.mp hhead
    exact {
      chain := by
        simp [HeaderList.step, append, KHttpHeaderManager.newHeader, hhead, hnil, h.count]
      last := by simp [HeaderList.step, append, KHttpHeaderManager.newHeader, hhead, hnil, h.count]
      av := by simp [HeaderList.step, append, KHttpHeaderManager.newHeader, hhead, h.av, h.count]
      count := by simp [HeaderList.step, append, KHttpHeaderManager.newHeader, hhead, h.count]
      freed := by simp [HeaderList.step, append, KHttpHeaderManager.newHeader, hhead, h.freed]
      old := hold }
  · have hne : l.headers ≠ [] := fun hnil => hhead (h.header_eq_none.mpr hnil)
    exact {
      chain := by
        simp only [append, KHttpHeaderManager.newHeader, if_neg hhead, HeaderList.step, chain_cons,
          h.count, Function.update_self, true_and]
        rw [← h.count]
        exact hchain.update hnew _
      last := by
        simp [HeaderList.step, append, KHttpHeaderManager.newHeader, hhead, h.last,
          List.getLast?_cons_of_ne_nil hne]
      av := by simp [HeaderList.step, append, KHttpHeaderManager.newHeader, hhead, h.av, h.count]
      count := by simp [HeaderList.step, append, KHttpHeaderManager.newHeader, hhead, h.count]
      freed := by simp [HeaderList.step, append, KHttpHeaderManager.newHeader, hhead, h.freed]
      old := hold }

/-! ## The walks -/

/-- The header behind `last` is taken out of the chain, and nothing else. -/
theorem chain_unlink (h : Chain m.next m.header (k ++ a :: r)) (hlast : m.last = k.getLast?) :
    Chain (m.unlink (m.next a)).next (m.unlink (m.next a)).header (k ++ r) := by
  rcases List.eq_nil_or_concat' k with rfl | ⟨k, b, rfl⟩
  · rw [List.getLast?_nil] at hlast
    rw [unlink, hlast]
    exact h.2
  · rw [List.getLast?_concat] at hlast
    rw [List.append_assoc, List.singleton_append] at h ⊢
    rw [unlink, hlast]
    exact h.unlink

/-- The walk touches the links only. -/
theorem unlink_keeps (m : KHttpHeaderManager) (next : Option ℕ) :
    (m.unlink next).av = m.av ∧ (m.unlink next).count = m.count ∧
      (m.unlink next).freed = m.freed ∧ (m.unlink next).last = m.last := by
  unfold unlink
  cases m.last <;> exact ⟨rfl, rfl, rfl, rfl⟩

/-- The loop of `iterator` with the headers `k` kept so far and the headers `r` still to come. -/
theorem iteratorLoop_spec (it : ℕ → KHttpHeaderIteratorResult) (fuel : ℕ)
    (h : Chain m.next m.header (k ++ r)) (hlast : m.last = k.getLast?) (hfuel : r.length < fuel) :
    let m' := iteratorLoop it fuel m r.head?
    let kept := k ++ r.filter fun a => it a = .continue
    Chain m'.next m'.header kept ∧ m'.last = kept.getLast? ∧ m'.av = m.av ∧ m'.count = m.count ∧
      m'.freed = m.freed ++ r.filter fun a => it a = .free := by
  induction fuel generalizing m k r with
  | zero => omega
  | succ fuel ih =>
    cases r with
    | nil =>
      rw [List.append_nil] at h
      simpa [iteratorLoop] using ⟨h, hlast⟩
    | cons a r =>
      have hnext : m.next a = r.head? := h.behind.start_eq
      have hlen : r.length < fuel := Nat.lt_of_succ_lt_succ hfuel
      obtain ⟨hav, hcount, hfreed, hsame⟩ := m.unlink_keeps r.head?
      have hout := chain_unlink h hlast
      rw [hnext] at hout
      simp only [List.head?_cons, iteratorLoop, hnext]
      cases hit : it a with
      | «continue» =>
        have hstep := ih (m := { m with last := some a }) (k := k ++ [a]) (r := r)
          (by simpa using h)
          (by simp) hlen
        simpa [hit] using hstep
      | remove =>
        have hstep := ih hout (hsame.trans hlast) hlen
        rw [hav, hcount, hfreed] at hstep
        simpa [hit] using hstep
      | free =>
        let m' := { m.unlink r.head? with freed := (m.unlink r.head?).freed ++ [a] }
        have hstep := ih (m := m') hout (hsame.trans hlast) hlen
        simp only [m', hav, hcount, hfreed] at hstep
        simpa [hit, hav, hcount, hfreed] using hstep

theorem represents_iterator (headerTypeString : ℕ → Bytes) (h : m.Represents l)
    (it : ℕ → KHttpHeaderIteratorResult) :
    (m.iterator it).Represents (l.step headerTypeString (.iterator it)).1 := by
  have hlen : l.headers.length < m.count + 1 := by
    have := h.length_le
    rw [h.count]
    omega
  have hloop := iteratorLoop_spec (m := { m with last := none }) (k := []) it (m.count + 1) h.chain
    rfl hlen
  rw [← h.chain.start_eq] at hloop
  obtain ⟨hchain, hlast, hav, hcount, hfreed⟩ := hloop
  exact {
    chain := hchain
    last := hlast
    av := hav.trans h.av
    count := hcount.trans h.count
    freed := hfreed.trans (congrArg (· ++ _) h.freed)
    old := fun a ha => h.old a (List.mem_filter.mp ha).1 }

/-- The loop of `remove` with the headers `k` passed so far and the headers `r` still to come. Where
a header is found, `last` stays on the header before it. -/
theorem removeLoop_spec (headerTypeString : ℕ → Bytes) (attr : Bytes) (fuel : ℕ)
    (h : Chain m.next m.header (k ++ r)) (hlast : m.last = k.getLast?) (hfuel : r.length < fuel) :
    let p := fun a => (m.av a).isAttr headerTypeString attr
    let out := removeLoop headerTypeString attr fuel m r.head?
    Chain out.1.next out.1.header (k ++ r.eraseP p) ∧ out.2 = r.find? p ∧
      out.1.last = (k ++ r.takeWhile fun a => !p a).getLast? ∧ out.1.av = m.av ∧
      out.1.count = m.count ∧ out.1.freed = m.freed := by
  induction fuel generalizing m k r with
  | zero => omega
  | succ fuel ih =>
    cases r with
    | nil =>
      rw [List.append_nil] at h
      simpa [removeLoop] using ⟨h, hlast⟩
    | cons a r =>
      have hnext : m.next a = r.head? := h.behind.start_eq
      obtain ⟨hav, hcount, hfreed, hsame⟩ := m.unlink_keeps (m.next a)
      simp only [List.head?_cons, removeLoop]
      cases hp : (m.av a).isAttr headerTypeString attr with
      | true =>
        have hout := chain_unlink h hlast
        simpa [hp, hav, hcount, hfreed] using ⟨hout, hsame.trans hlast⟩
      | false =>
        have hstep := ih (m := { m with last := some a }) (k := k ++ [a]) (r := r)
          (by simpa using h)
          (by simp) (Nat.lt_of_succ_lt_succ hfuel)
        simpa [hp, hnext] using hstep

/-- What `remove` does to a list: all but `last` is as it should be. -/
theorem represents_remove (headerTypeString : ℕ → Bytes) (h : m.Represents l) (attr : Bytes) :
    let named := l.named headerTypeString attr
    let m' := (m.remove headerTypeString attr).1
    (m.remove headerTypeString attr).2 = l.headers.find? named ∧
      m'.last = (l.headers.takeWhile fun a => !named a).getLast? ∧
      (m'.last = (l.headers.eraseP named).getLast? →
        m'.Represents (l.step headerTypeString (.remove attr)).1) := by
  have hlen : l.headers.length < m.count + 1 := by
    have := h.length_le
    rw [h.count]
    omega
  have hloop := removeLoop_spec (m := { m with last := none }) (k := []) headerTypeString attr
    (m.count + 1) h.chain rfl hlen
  have hnamed : ∀ a, (m.av a).isAttr headerTypeString attr = l.named headerTypeString attr a := by
    rw [h.av]
    exact fun a => rfl
  rw [← h.chain.start_eq] at hloop
  simp only [hnamed, List.nil_append] at hloop
  obtain ⟨hchain, hfound, hlast, hav, hcount, hfreed⟩ := hloop
  refine ⟨hfound, hlast, fun heq => ?_⟩
  exact {
    chain := hchain
    last := heq
    av := hav.trans h.av
    count := hcount.trans h.count
    freed := hfreed.trans h.freed
    old := fun a ha => h.old a (List.mem_of_mem_eraseP ha) }

/-- The header before the first match is the last one that is left where the match was last. -/
theorem getLast?_takeWhile_iff {p : ℕ → Bool} (hnodup : r.Nodup) :
    (r.takeWhile fun a => !p a).getLast? = (r.eraseP p).getLast? ↔
      ∀ a, r.find? p = some a → r.getLast? = some a := by
  cases hfind : r.find? p with
  | none =>
    have hnone : ∀ a ∈ r, p a = false := by simpa using hfind
    have htake : (r.takeWhile fun a => !p a) = r :=
      List.takeWhile_eq_self_iff.mpr fun a ha => by simp [hnone a ha]
    have herase : r.eraseP p = r := List.eraseP_of_forall_not fun a ha => by simp [hnone a ha]
    simp [htake, herase]
  | some a =>
    obtain ⟨hpa, k, t, rfl, hk⟩ := List.find?_eq_some_iff_append.mp hfind
    have hpk : ∀ b ∈ k, p b = false := fun b hb => by simpa using hk b hb
    have htake : ((k ++ a :: t).takeWhile fun a => !p a) = k := by
      rw [List.takeWhile_append_of_pos fun b hb => by simp [hpk b hb]]
      simp [hpa]
    have herase : (k ++ a :: t).eraseP p = k ++ t := by
      rw [List.eraseP_append_right _ fun b hb => by simp [hpk b hb], List.eraseP_cons_of_pos hpa]
    rw [htake, herase]
    rcases List.eq_nil_or_concat' t with rfl | ⟨t, b, rfl⟩
    · simp
    · -- the last header that is left is behind the match, so it is neither before it nor it
      simp only [List.nodup_append, List.nodup_cons, List.mem_cons, List.mem_append,
        List.not_mem_nil, or_false] at hnodup
      have hne : b ≠ a := fun hba => hnodup.2.1.1 (Or.inr hba.symm)
      have hb : k.getLast? ≠ some b := fun hlast =>
        hnodup.2.2 b (List.mem_of_getLast? hlast) b (Or.inr (Or.inr rfl)) rfl
      rw [← List.append_assoc, List.getLast?_concat, ← List.cons_append, ← List.append_assoc,
        List.getLast?_concat]
      exact ⟨fun h => absurd h hb, fun h => absurd (Option.some.inj (h a rfl)) hne⟩

/-! ## Runs -/

/-- Every operation acts as on a list, unless it is a `remove` of a header that is not the last. -/
theorem represents_step (headerTypeString : ℕ → Bytes) (h : m.Represents l) (op : Op)
    (hop : ∀ attr, op = .remove attr → l.RemovesLast headerTypeString attr) :
    ∃ m', m.step headerTypeString op = some (m', (l.step headerTypeString op).2) ∧
      m'.Represents (l.step headerTypeString op).1 := by
  cases op with
  | insert av => exact represents_insert headerTypeString h av
  | append av => exact represents_append headerTypeString h av
  | iterator it => exact ⟨m.iterator it, rfl, represents_iterator headerTypeString h it⟩
  | remove attr =>
    obtain ⟨hfound, hlast, hrep⟩ := represents_remove headerTypeString h attr
    have heq := (getLast?_takeWhile_iff h.chain.nodup).mpr (hop attr rfl)
    exact ⟨_, congrArg some (Prod.ext rfl hfound), hrep (hlast.trans heq)⟩
  | stealHeader =>
    refine ⟨m.stealHeader.1, ?_, ?_⟩
    · simp [step, stealHeader, HeaderList.step, h.chain.start_eq]
    · exact {
        chain := rfl
        last := rfl
        av := h.av
        count := h.count
        freed := h.freed
        old := by simp [HeaderList.step] }

/-- The series of operations acts as on a list, and the manager is that list at its end. -/
def Faithful (headerTypeString : ℕ → Bytes) (m : KHttpHeaderManager) (l : HeaderList)
    (ops : List Op) : Prop :=
  ∃ m', m.run headerTypeString ops = some (m', (l.run headerTypeString ops).2) ∧
    m'.Represents (l.run headerTypeString ops).1

theorem faithful_cons {headerTypeString : ℕ → Bytes} {op : Op} {ops : List Op}
    {m' : KHttpHeaderManager}
    (hstep : m.step headerTypeString op = some (m', (l.step headerTypeString op).2)) :
    m.Faithful headerTypeString l (op :: ops) ↔
      m'.Faithful headerTypeString (l.step headerTypeString op).1 ops := by
  unfold Faithful
  simp [run, HeaderList.run, hstep]

/-- A manager acts as a list along a whole series exactly when every `remove` that finds a header
finds the last one. -/
theorem faithful_run_iff_of_represents (headerTypeString : ℕ → Bytes) (ops : List Op)
    (h : m.Represents l) :
    (∀ n, m.Faithful headerTypeString l (ops.take n)) ↔
      ∀ n attr, ops[n]? = some (.remove attr) →
        (l.run headerTypeString (ops.take n)).1.RemovesLast headerTypeString attr := by
  induction ops generalizing m l with
  | nil =>
    refine ⟨fun _ n attr hop => by simp at hop, fun _ n => ?_⟩
    rw [List.take_nil]
    exact ⟨m, rfl, h⟩
  | cons op ops ih =>
    constructor
    · intro hall
      have hop : ∀ attr, op = .remove attr → l.RemovesLast headerTypeString attr := by
        rintro attr rfl
        obtain ⟨m', hrun, hrep⟩ := hall 1
        obtain ⟨-, hlast, -⟩ := represents_remove headerTypeString h attr
        simp only [List.take_succ_cons, List.take_zero, run, step, Option.bind_some,
          Option.map_some,
          Option.some.injEq, Prod.mk.injEq] at hrun
        refine (getLast?_takeWhile_iff h.chain.nodup).mp (hlast.symm.trans ?_)
        rw [hrun.1]
        exact hrep.last
      obtain ⟨m', hstep, hrep⟩ := represents_step headerTypeString h op hop
      have hrest := (ih hrep).mp fun n => (faithful_cons hstep).mp (hall (n + 1))
      intro n attr hn
      cases n with
      | zero => exact hop attr (Option.some.inj hn)
      | succ n => exact hrest n attr hn
    · intro hall n
      have hop : ∀ attr, op = .remove attr → l.RemovesLast headerTypeString attr :=
        fun attr heq => hall 0 attr (congrArg some heq)
      obtain ⟨m', hstep, hrep⟩ := represents_step headerTypeString h op hop
      cases n with
      | zero => exact ⟨m, rfl, h⟩
      | succ n =>
        exact (faithful_cons hstep).mpr ((ih hrep).mpr (fun n attr => hall (n + 1) attr) n)

/-- From an empty manager on. -/
theorem faithful_run_iff (headerTypeString : ℕ → Bytes) (ops : List Op) :
    (∀ n, init.Faithful headerTypeString .init (ops.take n)) ↔
      ∀ n attr, ops[n]? = some (.remove attr) →
        (HeaderList.init.run headerTypeString (ops.take n)).1.RemovesLast headerTypeString attr :=
  faithful_run_iff_of_represents headerTypeString ops represents_init

/-- Four headers, the second of them removed before the last comes. -/
def removeInside : List Op :=
  [.insert ⟨false, 0, kglString "A"⟩, .insert ⟨false, 0, kglString "B"⟩,
    .insert ⟨false, 0, kglString "C"⟩, .remove (kglString "b"), .insert ⟨false, 0, kglString "D"⟩]

/-- The third header is lost: the fourth is linked behind the first. -/
theorem removeInside_not_faithful : ¬init.Faithful (fun _ => []) .init removeInside := by
  rintro ⟨m', hrun, hrep⟩
  have hlinks : (init.run (fun _ => []) removeInside).map (fun r => r.1.next 0) =
      some (some 3) := rfl
  have hheaders : (HeaderList.init.run (fun _ => []) removeInside).1.headers = [0, 2, 3] := rfl
  have hchain := hrep.chain
  rw [hheaders] at hchain
  rw [hrun] at hlinks
  have hnext : m'.next 0 = some 2 := hchain.2.1
  simp [hnext] at hlinks

end KHttpHeaderManager

end Khttpd
