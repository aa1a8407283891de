import Mathlib.Data.List.DropRight
import Khttpd.Model.SocketPool

/-!
# Expired connections in the pool

The pool puts connections at its head and sweeps expired ones from its tail, up to the first that
has time left. So an expired connection stays in the list while one behind it has not expired, and
`get_pool_socket` hands it out where nothing usable stands before it. Apart from that the pool hands
out no expired connection, and its size is always the length of its list.
-/

set_option autoImplicit false

namespace Khttpd

variable {ι : Type} {now : ℤ} {websocket : Bool} {newStream : KUpstream ι → Bool}
  {l : List (KUpstream ι)} {size : ℤ}

/-! ## Dropping from the right -/

/-- Dropping from the right stops in the part on the right where that has something to keep. -/
theorem rdropWhile_append_of_mem {α : Type} {p : α → Bool} {a : α} {k r : List α} (ha : a ∈ r)
    (hp : p a = false) : (k ++ r).rdropWhile p = k ++ r.rdropWhile p := by
  induction r using List.reverseRecOn with
  | nil => cases ha
  | append_singleton r b ih =>
    rw [← List.append_assoc]
    cases hb : p b with
    | true =>
      have hmem : a ∈ r := by
        rcases List.mem_append.mp ha with ha | ha
        · exact ha
        · rw [List.mem_singleton.mp ha, hb] at hp
          cases hp
      rw [List.rdropWhile_concat_pos _ _ _ hb, List.rdropWhile_concat_pos _ _ _ hb]
      exact ih hmem
    | false =>
      have hneg : ¬p b = true := by simp [hb]
      rw [List.rdropWhile_concat_neg _ _ _ hneg, List.rdropWhile_concat_neg _ _ _ hneg,
        List.append_assoc]

/-! ## The list -/

/-- The entry has expired. -/
def KUpstream.expired (now : ℤ) (st : KUpstream ι) : Bool := st.expireTime ≤ now

namespace KPoolableSocketContainerImp

variable {imp : KPoolableSocketContainerImp ι}

/-- What `size` is for. -/
def Counted (imp : KPoolableSocketContainerImp ι) : Prop := imp.size = imp.head.length

theorem refreshLoop_spec (clean : Bool) (l : List (KUpstream ι)) (size : ℤ) :
    let r := refreshLoop now clean l size
    r.1 = l.dropWhile (fun st => clean || st.expired now) ∧
      r.2.1 - r.1.length = size - l.length := by
  induction l generalizing size with
  | nil => simp [refreshLoop]
  | cons st l ih =>
    unfold refreshLoop
    by_cases hstop : (!clean && decide (st.expireTime > now)) = true
    · rw [if_pos hstop]
      simp only [Bool.and_eq_true, Bool.not_eq_true', decide_eq_true_eq] at hstop
      have hkeep : (clean || st.expired now) = false := by
        simp [KUpstream.expired, hstop.1, hstop.2]
      simp [hkeep]
    · rw [if_neg hstop]
      have hdrop : (clean || st.expired now) = true := by
        cases clean with
        | true => rfl
        | false => simpa [KUpstream.expired] using hstop
      obtain ⟨hlist, hsize⟩ := ih (size - 1)
      refine ⟨by simpa [List.dropWhile_cons, hdrop] using hlist, ?_⟩
      simp only [List.length_cons]
      omega

/-- `refresh` drops from the end of the list what has expired, up to the first that has not. -/
theorem refresh_head (clean : Bool) (imp : KPoolableSocketContainerImp ι) :
    (imp.refresh now clean).1.head =
      imp.head.rdropWhile fun st => clean || st.expired now := by
  unfold List.rdropWhile
  rw [← (refreshLoop_spec clean imp.head.reverse imp.size).1]
  rfl

theorem Counted.refresh (h : imp.Counted) (clean : Bool) : (imp.refresh now clean).1.Counted := by
  have hsize := (@refreshLoop_spec ι now clean imp.head.reverse imp.size).2
  unfold Counted at h ⊢
  simp only [KPoolableSocketContainerImp.refresh, List.length_reverse] at hsize ⊢
  omega

/-- The loop of `internalGetPoolSocket` comes to `e`: the entries before it are multi-stream
connections that open no stream, and `e` is not one of them. -/
structure ComesTo (websocket : Bool) (newStream : KUpstream ι → Bool) (before : List (KUpstream ι))
    (e : KUpstream ι) : Prop where
  websocket : ∀ st ∈ before ++ [e], websocket = true → st.supportWebsocket = true
  before : ∀ st ∈ before, st.isMultiStream = true ∧ newStream st = false
  usable : e.isMultiStream = true → newStream e = true

theorem getLoop_counted (l : List (KUpstream ι)) (size : ℤ) :
    let r := getLoop websocket newStream l size
    r.1 - r.2.1.length = size - l.length := by
  induction l generalizing size with
  | nil => simp [getLoop]
  | cons st l ih =>
    have hrest := ih (size - 1)
    unfold getLoop
    repeat' split
    all_goals simp only [List.length_cons] at hrest ⊢
    all_goals omega

theorem comesTo_nil {e : KUpstream ι} : ComesTo websocket newStream [] e ↔
    (websocket = true → e.supportWebsocket = true) ∧
      (e.isMultiStream = true → newStream e = true) :=
  ⟨fun h => ⟨h.websocket e (by simp), h.usable⟩,
    fun h => ⟨fun st hst => by
        simp only [List.nil_append, List.mem_singleton] at hst
        exact hst ▸ h.1,
      by simp, h.2⟩⟩

theorem comesTo_cons {before : List (KUpstream ι)} {st e : KUpstream ι} :
    ComesTo websocket newStream (st :: before) e ↔
      (websocket = true → st.supportWebsocket = true) ∧ st.isMultiStream = true ∧
        newStream st = false ∧ ComesTo websocket newStream before e := by
  constructor
  · intro h
    obtain ⟨hmulti, hnone⟩ := h.before st (List.mem_cons_self ..)
    refine ⟨h.websocket st (by simp), hmulti, hnone, ?_, ?_, h.usable⟩
    · exact fun st' hst' => h.websocket st' (List.mem_cons_of_mem _ hst')
    · exact fun st' hst' => h.before st' (List.mem_cons_of_mem _ hst')
  · rintro ⟨hwebsocket, hmulti, hnone, h⟩
    refine ⟨?_, ?_, h.usable⟩
    · exact fun st' hst' =>
        (List.mem_cons.mp hst').elim (fun heq => heq ▸ hwebsocket) (h.websocket st')
    · exact fun st' hst' =>
        (List.mem_cons.mp hst').elim (fun heq => heq ▸ ⟨hmulti, hnone⟩) (h.before st')

/-- The loop comes to `e` somewhere in the list. -/
def Reaches (websocket : Bool) (newStream : KUpstream ι → Bool) (l : List (KUpstream ι))
    (e : KUpstream ι) : Prop :=
  ∃ before behind, l = before ++ e :: behind ∧ ComesTo websocket newStream before e

theorem reaches_nil {e : KUpstream ι} : ¬Reaches websocket newStream [] e := by
  rintro ⟨before, behind, h, -⟩
  cases before <;> cases h

theorem reaches_cons {st e : KUpstream ι} : Reaches websocket newStream (st :: l) e ↔
    (websocket = true → st.supportWebsocket = true) ∧
      (st = e ∧ (e.isMultiStream = true → newStream e = true) ∨
        st.isMultiStream = true ∧ newStream st = false ∧ Reaches websocket newStream l e) := by
  constructor
  · rintro ⟨before, behind, heq, h⟩
    cases before with
    | nil =>
      obtain ⟨rfl, -⟩ := List.cons.inj heq
      obtain ⟨hwebsocket, husable⟩ := comesTo_nil.mp h
      exact ⟨hwebsocket, Or.inl ⟨rfl, husable⟩⟩
    | cons b before =>
      obtain ⟨rfl, rfl⟩ := List.cons.inj heq
      obtain ⟨hwebsocket, hmulti, hnone, h⟩ := comesTo_cons.mp h
      exact ⟨hwebsocket, Or.inr ⟨hmulti, hnone, before, behind, rfl, h⟩⟩
  · rintro ⟨hwebsocket, ⟨rfl, husable⟩ | ⟨hmulti, hnone, before, behind, rfl, h⟩⟩
    · exact ⟨[], l, rfl, comesTo_nil.mpr ⟨hwebsocket, husable⟩⟩
    · exact ⟨st :: before, behind, rfl, comesTo_cons.mpr ⟨hwebsocket, hmulti, hnone, h⟩⟩

/-- What the loop hands out is the entry that it comes to. -/
theorem getLoop_entry_iff (l : List (KUpstream ι)) (size : ℤ) (e : KUpstream ι) :
    (getLoop websocket newStream l size).2.2.1.map PoolSocket.entry = some e ↔
      Reaches websocket newStream l e := by
  induction l generalizing size with
  | nil => simp [getLoop, reaches_nil]
  | cons st l ih =>
    rw [reaches_cons, getLoop]
    cases hwebsocket : (websocket && !st.supportWebsocket) with
    | true =>
      simp only [Bool.and_eq_true, Bool.not_eq_true'] at hwebsocket
      simp [hwebsocket]
    | false =>
      have hok : websocket = true → st.supportWebsocket = true := by simpa using hwebsocket
      cases hmulti : st.isMultiStream with
      | false =>
        have hself : st = e → e.isMultiStream = false := fun heq => heq ▸ hmulti
        simp only [if_false, Bool.false_eq_true, Option.map_some, Option.some.injEq]
        exact ⟨fun heq => ⟨hok, Or.inl ⟨heq, fun h => by simp [hself heq] at h⟩⟩,
          fun h => h.2.elim (fun h => h.1) fun h => by cases h.1⟩
      | true =>
        cases hnew : newStream st with
        | true =>
          simp only [if_true, if_false, Bool.false_eq_true, Option.map_some, Option.some.injEq]
          exact ⟨fun heq => ⟨hok, Or.inl ⟨heq, fun _ => heq ▸ hnew⟩⟩,
            fun h => h.2.elim (fun h => h.1) fun h => by cases h.2.1⟩
        | false =>
          have hself : st = e → ¬(e.isMultiStream = true → newStream e = true) := by
            rintro rfl h
            exact absurd (h hmulti) (by simp [hnew])
          simp only [if_true, if_false, Bool.false_eq_true]
          rw [ih (size - 1)]
          exact ⟨fun h => ⟨hok, Or.inr ⟨trivial, trivial, h⟩⟩,
            fun h => h.2.elim (fun h => absurd h.2 (hself h.1)) fun h => h.2.2⟩

/-- The entry that the loop comes to has expired, and one behind it has not. -/
def Shadows (now : ℤ) (websocket : Bool) (newStream : KUpstream ι → Bool)
    (l : List (KUpstream ι)) : Prop :=
  ∃ before e behind, l = before ++ e :: behind ∧ ComesTo websocket newStream before e ∧
    e.expireTime ≤ now ∧ ∃ st ∈ behind, now < st.expireTime

/-- After the sweep the loop comes to an expired entry exactly where that entry shadows one that
has not expired. -/
theorem reaches_expired_iff :
    (∃ e, Reaches websocket newStream (l.rdropWhile (KUpstream.expired now)) e ∧
      e.expireTime ≤ now) ↔ Shadows now websocket newStream l := by
  constructor
  · rintro ⟨e, ⟨before, behind, heq, h⟩, hexpired⟩
    obtain ⟨swept, hswept⟩ := List.rdropWhile_prefix (KUpstream.expired now) (l := l)
    -- what the sweep stops at has not expired, so it is not `e` but stands behind it
    have hne : l.rdropWhile (KUpstream.expired now) ≠ [] := by simp [heq]
    have hlast := List.rdropWhile_last_not (KUpstream.expired now) l hne
    rcases List.eq_nil_or_concat' behind with rfl | ⟨behind, st, rfl⟩
    · simp only [heq, List.getLast_append_singleton] at hlast
      simp [KUpstream.expired] at hlast
      omega
    · refine ⟨before, e, behind ++ [st] ++ swept, ?_, h, hexpired, st, by simp, ?_⟩
      · rw [← hswept, heq]
        simp
      · have hget : (l.rdropWhile (KUpstream.expired now)).getLast hne = st := by
          simp [heq]
        rw [hget] at hlast
        simpa [KUpstream.expired] using hlast
  · rintro ⟨before, e, behind, rfl, h, hexpired, st, hst, hfresh⟩
    have hkeep : KUpstream.expired now st = false := by simpa [KUpstream.expired] using hfresh
    refine ⟨e, ⟨before, behind.rdropWhile (KUpstream.expired now), ?_, h⟩, hexpired⟩
    have hsplit : before ++ e :: behind = (before ++ [e]) ++ behind := by simp
    rw [hsplit, rdropWhile_append_of_mem hst hkeep]
    simp

theorem Counted.getLoop (h : imp.Counted) :
    let r := KPoolableSocketContainerImp.getLoop websocket newStream imp.head imp.size
    (⟨r.1, r.2.1⟩ : KPoolableSocketContainerImp ι).Counted := by
  have hsize := @getLoop_counted ι websocket newStream imp.head imp.size
  unfold Counted at h ⊢
  dsimp only at hsize ⊢
  omega

end KPoolableSocketContainerImp

/-! ## Runs -/

namespace PoolState

open KPoolableSocketContainerImp

variable {klistInsert : KUpstream ι → List (KUpstream ι) → List (KUpstream ι)} {s : PoolState ι}

/-- `size` counts the connections in the list. -/
def Counted (s : PoolState ι) : Prop := s.pool.getImp.Counted

/-- What `step` hands out has not expired. -/
def HandsFresh (klistInsert : KUpstream ι → List (KUpstream ι) → List (KUpstream ι))
    (s : PoolState ι) (e : PoolEvent ι) : Prop :=
  ∀ hit, (s.step klistInsert e).2 = some hit → s.now < hit.entry.expireTime

theorem counted_put (hinsert : ∀ st l, (klistInsert st l).Perm (st :: l)) (h : s.Counted)
    (st : KUpstream ι) : (s.pool.putPoolSocket klistInsert st).getImp.Counted := by
  have hlen : (klistInsert st s.pool.getImp.head).length = s.pool.getImp.head.length + 1 :=
    (hinsert st s.pool.getImp.head).length_eq
  unfold Counted KPoolableSocketContainerImp.Counted at h
  show s.pool.getImp.size + 1 = ((klistInsert st s.pool.getImp.head).length : ℤ)
  rw [hlen, h]
  simp

theorem counted_step (hinsert : ∀ st l, (klistInsert st l).Perm (st :: l)) (h : s.Counted)
    (e : PoolEvent ι) : (s.step klistInsert e).1.Counted := by
  cases e with
  | gcSocket st lifeTime =>
    simp only [step, KPoolableSocketContainer.gcSocket]
    repeat' split
    · exact h
    · exact h
    · exact h
    · exact counted_put hinsert h _
  | refresh nowTime =>
    simp only [step, KPoolableSocketContainer.refresh]
    cases himp : s.pool.imp with
    | none => exact h
    | some imp =>
      unfold Counted KPoolableSocketContainer.getImp at h
      rw [himp] at h
      exact h.refresh _
  | getPoolSocket websocket newStream =>
    exact KPoolableSocketContainerImp.Counted.getLoop
      (KPoolableSocketContainerImp.Counted.refresh h false)
  | tick sec => exact h

theorem counted_run (hinsert : ∀ st l, (klistInsert st l).Perm (st :: l)) (es : List (PoolEvent ι))
    (h : s.Counted) : (s.run klistInsert es).Counted := by
  induction es generalizing s with
  | nil => exact h
  | cons e es ih => exact ih (counted_step hinsert h e)

/-- A step hands out no expired connection, unless the first usable entry of the list has expired
and stands before one that has not. -/
theorem handsFresh_iff (e : PoolEvent ι) :
    s.HandsFresh klistInsert e ↔ ∀ websocket newStream, e = .getPoolSocket websocket newStream →
      ¬Shadows s.now websocket newStream s.pool.getImp.head := by
  have hnone : (s.step klistInsert e).2 = none → s.HandsFresh klistInsert e := by
    intro hstep hit hhit
    rw [hstep] at hhit
    cases hhit
  cases e with
  | gcSocket st lifeTime => exact ⟨(fun _ _ _ h => by cases h), fun _ => hnone rfl⟩
  | refresh nowTime => exact ⟨(fun _ _ _ h => by cases h), fun _ => hnone rfl⟩
  | tick sec => exact ⟨(fun _ _ _ h => by cases h), fun _ => hnone rfl⟩
  | getPoolSocket websocket newStream =>
    let swept := (s.pool.getImp.refresh s.now false).1
    have hhead : swept.head = s.pool.getImp.head.rdropWhile (KUpstream.expired s.now) := by
      have hrefresh := @refresh_head ι s.now false s.pool.getImp
      simpa using hrefresh
    have hentry : ∀ e, (s.step klistInsert (.getPoolSocket websocket newStream)).2.map
        PoolSocket.entry = some e ↔
          Reaches websocket newStream (s.pool.getImp.head.rdropWhile (KUpstream.expired s.now)) e :=
      fun e => hhead ▸ getLoop_entry_iff swept.head swept.size e
    constructor
    · rintro hfresh _ _ ⟨rfl, rfl⟩ hshadows
      obtain ⟨e, hreach, hexpired⟩ := reaches_expired_iff.mpr hshadows
      obtain ⟨hit, hhit, rfl⟩ := Option.map_eq_some_iff.mp ((hentry e).mpr hreach)
      exact absurd (hfresh hit hhit) (Int.not_lt.mpr hexpired)
    · intro hno hit hhit
      refine Int.not_le.mp fun hexpired => hno websocket newStream rfl ?_
      refine reaches_expired_iff.mp ⟨hit.entry, (hentry hit.entry).mp ?_, hexpired⟩
      rw [hhit]
      rfl

/-- Along every run the size is the length of the list, and no expired connection is handed out
exactly when no call of `get_pool_socket` finds an expired entry before an unexpired one as the
first that it can use. -/
theorem neverExpired_run_iff (klistInsert : KUpstream ι → List (KUpstream ι) → List (KUpstream ι))
    (hinsert : ∀ st l, (klistInsert st l).Perm (st :: l)) (lifeTime : ℕ) (now : ℤ)
    (es : List (PoolEvent ι)) :
    let s : ℕ → PoolState ι := fun n =>
      PoolState.run klistInsert ⟨now, .init lifeTime⟩ (es.take n)
    (∀ n, (s n).Counted ∧ ∀ e, es[n]? = some e → (s n).HandsFresh klistInsert e) ↔
      ∀ n websocket newStream, es[n]? = some (.getPoolSocket websocket newStream) →
        ¬Shadows (s n).now websocket newStream (s n).pool.getImp.head := by
  intro s
  have hcounted : ∀ n, (s n).Counted := fun n => counted_run hinsert (es.take n) rfl
  constructor
  · intro h n websocket newStream he
    exact (handsFresh_iff _).mp ((h n).2 _ he) websocket newStream rfl
  · intro h n
    refine ⟨hcounted n, fun e he => (handsFresh_iff e).mpr fun websocket newStream heq => ?_⟩
    exact h n websocket newStream (heq ▸ he)

/-- A connection that lives for a minute and, behind it in time, one that lives for a second. -/
def shortLived : List (PoolEvent ℕ) :=
  [.gcSocket ⟨0, 100, false, false⟩ 60, .gcSocket ⟨1, 100, false, false⟩ 1, .tick 10,
    .getPoolSocket false fun _ => false]

/-- Ten seconds later the second one is handed out. -/
theorem shortLived_expired :
    ¬(PoolState.run List.cons ⟨100, .init 60⟩ (shortLived.take 3)).HandsFresh List.cons
      (.getPoolSocket false fun _ => false) := by
  intro h
  exact absurd (h ⟨⟨1, 101, false, false⟩, false⟩ (by decide)) (by decide)

/-- The same two connections in the other order. -/
def longLived : List (PoolEvent ℕ) :=
  [.gcSocket ⟨1, 100, false, false⟩ 1, .gcSocket ⟨0, 100, false, false⟩ 60, .tick 10,
    .getPoolSocket false fun _ => false]

/-- Here the first connection of the list has time left. -/
theorem longLived_neverExpired :
    (PoolState.run List.cons ⟨100, .init 60⟩ (longLived.take 3)).HandsFresh List.cons
      (.getPoolSocket false fun _ => false) := by
  refine ((neverExpired_run_iff List.cons (fun _ _ => .refl _) 60 100 longLived).mpr ?_ 3).2 _ rfl
  intro n websocket newStream he
  match n with
  | 0 => cases he
  | 1 => cases he
  | 2 => cases he
  | 3 =>
    rintro ⟨before, e, behind, heq, hcomes, hexpired, -⟩
    have hlist : (PoolState.run List.cons ⟨100, .init 60⟩ (longLived.take 3)).pool.getImp.head =
        [⟨0, 160, false, false⟩, ⟨1, 101, false, false⟩] := rfl
    rw [hlist] at heq
    cases before with
    | nil =>
      obtain ⟨rfl, -⟩ := List.cons.inj heq
      exact absurd hexpired (by decide)
    | cons st before =>
      obtain ⟨rfl, -⟩ := List.cons.inj heq
      exact absurd (hcomes.before _ (List.mem_cons_self ..)).1 (by decide)
  | n + 4 => simp [longLived] at he

end PoolState

end Khttpd
