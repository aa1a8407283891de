import Mathlib.Data.List.Perm.Basic
import Khttpd.Model.Run
import Khttpd.Model.Upstream

/-!
# The admin stream of a client connection in its pool

A connection has one admin stream at most: in use by its first request, in the pool, or about to be
destroyed. The time of its entry in the pool is that of its own last header, and no other stream
moves it: `KHttp2Upstream::gc` of another stream finds the entry as it stands, or makes an admin
stream that never read a header and that `gcSocket` destroys.
-/

set_option autoImplicit false

namespace Khttpd

/-! ## What leaves the pool -/

namespace KPoolableSocketContainerImp

variable {ι : Type} {now : ℤ} {websocket : Bool} {newStream : KUpstream ι → Bool}

theorem refreshLoop_append (clean : Bool) (l : List (KUpstream ι)) (size : ℤ) :
    (refreshLoop now clean l size).2.2 ++ (refreshLoop now clean l size).1 = l := by
  induction l generalizing size with
  | nil => rfl
  | cons st l ih =>
    unfold refreshLoop
    split
    · rfl
    · exact congrArg (List.cons st) (ih (size - 1))

/-- A sweep keeps an entry or destroys it. -/
theorem refresh_perm (now : ℤ) (clean : Bool) (imp : KPoolableSocketContainerImp ι) :
    imp.head.Perm ((imp.refresh now clean).1.head ++ (imp.refresh now clean).2) := by
  have happend := @refreshLoop_append ι now clean imp.head.reverse imp.size
  have hkept : (imp.refresh now clean).1.head =
      (refreshLoop now clean imp.head.reverse imp.size).1.reverse := rfl
  have hgone : (imp.refresh now clean).2 =
      (refreshLoop now clean imp.head.reverse imp.size).2.2 := rfl
  rw [hkept, hgone]
  refine (List.reverse_perm imp.head).symm.trans ?_
  refine (List.Perm.of_eq happend.symm).trans ?_
  refine List.perm_append_comm.trans ?_
  exact (List.reverse_perm _).symm.append_right _

/-- The entry that a caller takes out of the list. -/
def taken (socket : Option (PoolSocket ι)) : List (KUpstream ι) :=
  ((socket.filter fun socket => !socket.newStream).map PoolSocket.entry).toList

/-- A search keeps an entry, destroys it, or takes it out, which is no multi-stream one. -/
theorem getLoop_perm (l : List (KUpstream ι)) (size : ℤ) :
    let r := getLoop websocket newStream l size
    l.Perm (r.2.1 ++ r.2.2.2 ++ taken r.2.2.1) ∧
      ∀ st ∈ taken r.2.2.1, st.isMultiStream = false := by
  induction l generalizing size with
  | nil => exact ⟨.refl _, fun _ h => by cases h⟩
  | cons st l ih =>
    obtain ⟨hperm, htaken⟩ := ih (size - 1)
    unfold getLoop
    split
    · refine ⟨?_, fun _ h => by cases h⟩
      simp [taken]
    · split
      · split
        · refine ⟨?_, fun _ h => by cases h⟩
          simp [taken, Option.filter]
        · refine ⟨?_, htaken⟩
          refine (hperm.cons st).trans ?_
          rw [← List.cons_append, ← List.cons_append]
          refine List.Perm.append_right _ ?_
          exact List.perm_middle.symm
      · rename_i hsingle
        constructor
        · simp only [taken, Option.filter, Bool.not_false, if_true, Option.map_some,
            Option.toList_some, List.append_nil]
          exact (List.perm_append_singleton st l).symm
        · intro st' hst'
          simp only [taken, Option.filter, Bool.not_false, if_true, Option.map_some,
            Option.toList_some, List.mem_singleton] at hst'
          rw [hst']
          exact Bool.eq_false_iff.mpr hsingle

end KPoolableSocketContainerImp

namespace KPoolableSocketContainer

open KPoolableSocketContainerImp

variable {ι : Type} {now : ℤ} {websocket : Bool} {newStream : KUpstream ι → Bool}

/-- What `refresh` destroys leaves the list. -/
theorem refresh_perm (p : KPoolableSocketContainer ι) (nowTime : ℤ) :
    p.getImp.head.Perm ((p.refresh now nowTime).1.getImp.head ++ (p.refresh now nowTime).2) := by
  unfold refresh
  cases himp : p.imp with
  | none =>
    have hnone : p.getImp = .init := by
      unfold getImp
      rw [himp]
      rfl
    simp [hnone, KPoolableSocketContainerImp.init]
  | some imp =>
    have hsome : p.getImp = imp := by
      unfold getImp
      rw [himp]
      rfl
    rw [hsome]
    exact imp.refresh_perm now _

/-- What `get_pool_socket` destroys or takes leaves the list. -/
theorem getPoolSocket_perm (p : KPoolableSocketContainer ι) :
    let r := p.getPoolSocket now newStream websocket
    ∃ taken, p.getImp.head.Perm (r.1.getImp.head ++ r.2.2 ++ taken) ∧
      ∀ st ∈ taken, st.isMultiStream = false := by
  obtain ⟨hperm, htaken⟩ := @getLoop_perm ι websocket newStream
    (p.getImp.refresh now false).1.head (p.getImp.refresh now false).1.size
  refine ⟨_, ?_, htaken⟩
  refine (p.getImp.refresh_perm now false).trans ?_
  refine (hperm.append_right _).trans ?_
  have hswap : ∀ kept gone took swept : List (KUpstream ι),
      (kept ++ gone ++ took ++ swept).Perm (kept ++ (swept ++ gone) ++ took) := by
    intro kept gone took swept
    rw [List.append_assoc, List.append_assoc, List.append_assoc, List.append_assoc]
    refine List.Perm.append_left kept ?_
    rw [← List.append_assoc]
    exact List.perm_append_comm
  exact hswap _ _ _ _

end KPoolableSocketContainer

namespace UpstreamPool

variable {klistInsert : KUpstream PoolOwner → List (KUpstream PoolOwner) →
    List (KUpstream PoolOwner)}
  {s : UpstreamPool} {us : KHttp2Upstream} {n : ℕ}

/-! ## One admin stream -/

/-- The list of the pool. -/
def head (s : UpstreamPool) : List (KUpstream PoolOwner) := s.sockets.pool.getImp.head

/-- The entries of the connection. -/
def entries (s : UpstreamPool) : List (KUpstream PoolOwner) :=
  s.head.filter fun st => st.us.isHttp2

/-- The life time that `KHttp2Upstream::gc` asks for, within that of the container. -/
def lifeTime (s : UpstreamPool) : ℤ := s.sockets.pool.effectiveLifeTime 30

/-- The admin streams in use, in the pool, and about to be destroyed. -/
def admins (s : UpstreamPool) : ℕ :=
  s.streams.countP KHttp2Upstream.adminStream + s.entries.length + s.dying.length

/-- `has_admin_stream` counts the admin streams, of which `n` are in nobody's hands, the pool has no
other streams of the connection, and no request has read a header in the future. -/
structure Accounted (n : ℕ) (s : UpstreamPool) : Prop where
  admins : s.admins + n = if s.http2.hasAdminStream then 1 else 0
  owner : ∀ st ∈ s.head, st.us.isHttp2 = true → st.us.adminStream = true ∧ st.isMultiStream = true
  dying : ∀ o ∈ s.dying, o.adminStream = true
  container : ∀ us ∈ s.streams, us.container = true
  past : ∀ us ∈ s.streams, us.expireTime ≤ s.sockets.now
  clock : 0 ≤ s.sockets.now
  lifeTime : 0 < s.sockets.pool.lifeTime

/-- A new connection is in order. -/
theorem accounted_client (now : ℕ) {life : ℕ} (hlife : 0 < life) :
    (client now life).Accounted 0 where
  admins := rfl
  owner _ h := by cases h
  dying _ h := by cases h
  container us h := by
    rw [List.mem_singleton.mp h]
  past us h := by
    rw [List.mem_singleton.mp h]
    exact Int.natCast_nonneg now
  clock := Int.natCast_nonneg now
  lifeTime := hlife

/-- A request gives its upstream out of its hands. -/
theorem Accounted.erase (h : s.Accounted 0) (hus : us ∈ s.streams) :
    ({ s with streams := s.streams.erase us }).Accounted us.adminStream.toNat where
  admins := by
    have hcount := (List.perm_cons_erase hus).countP_eq KHttp2Upstream.adminStream
    have hadmins := h.admins
    rw [List.countP_cons] at hcount
    unfold UpstreamPool.admins at hadmins ⊢
    have hsame : entries { s with streams := s.streams.erase us } = s.entries := rfl
    rw [hsame]
    cases hadmin : us.adminStream with
    | false =>
      rw [hadmin, if_neg Bool.false_ne_true] at hcount
      rw [hcount] at hadmins
      exact hadmins
    | true =>
      rw [hadmin, if_pos rfl] at hcount
      rw [hcount] at hadmins
      show (s.streams.erase us).countP _ + s.entries.length + s.dying.length + 1 = _
      rw [← hadmins]
      omega
  owner := h.owner
  dying := h.dying
  container us' hus' := h.container us' (List.mem_of_mem_erase hus')
  past us' hus' := h.past us' (List.mem_of_mem_erase hus')
  clock := h.clock
  lifeTime := h.lifeTime

/-- An upstream that is in nobody's hands is destroyed. -/
theorem Accounted.destroy (h : s.Accounted us.adminStream.toNat) : (s.destroy us).Accounted 0 where
  admins := by
    have hadmins := h.admins
    unfold UpstreamPool.destroy KHttp2Client.releaseAdmin
    cases hadmin : us.adminStream with
    | false =>
      rw [hadmin] at hadmins
      exact hadmins
    | true =>
      rw [hadmin] at hadmins
      have hflag : s.http2.hasAdminStream = true := by
        by_contra hnone
        rw [if_neg hnone] at hadmins
        exact Nat.succ_ne_zero _ hadmins
      rw [if_pos hflag] at hadmins
      exact Nat.succ.inj hadmins
  owner := h.owner
  dying := h.dying
  container := h.container
  past := h.past
  clock := h.clock
  lifeTime := h.lifeTime

/-! ## Putting an admin stream into the pool -/

/-- The entry that an upstream becomes. -/
def entryOf (s : UpstreamPool) (us : KHttp2Upstream) : KUpstream PoolOwner :=
  { us.upstream s.http2.enableConnect with expireTime := us.expireTime + s.lifeTime }

/-- `gcSocket` of an upstream whose header was not read in the future. -/
theorem gcSocket_eq (hlife : 0 < s.sockets.pool.lifeTime)
    (hpast : us.expireTime ≤ s.sockets.now) :
    s.gcSocket klistInsert us 30 =
      if us.expireTime + s.lifeTime < s.sockets.now then s.destroy us
      else s.setPool (s.sockets.pool.putPoolSocket klistInsert (s.entryOf us)) := by
  have hopen : ¬(s.sockets.pool.lifeTime ≤ 0 ∨ (30 : ℤ) < 0) := by omega
  have hread : ¬(us.upstream s.http2.enableConnect).expireTime > s.sockets.now := by
    exact Int.not_lt.mpr hpast
  unfold gcSocket KPoolableSocketContainer.gcSocket
  rw [if_neg hopen, if_neg hread]
  dsimp only
  by_cases hlate : us.expireTime + s.lifeTime < s.sockets.now
  · have hlate' : (us.upstream s.http2.enableConnect).expireTime +
        s.sockets.pool.effectiveLifeTime 30 < s.sockets.now := hlate
    rw [if_pos hlate, if_pos hlate']
    rfl
  · have hlate' : ¬(us.upstream s.http2.enableConnect).expireTime +
        s.sockets.pool.effectiveLifeTime 30 < s.sockets.now := hlate
    rw [if_neg hlate, if_neg hlate']
    rfl

/-- With an admin stream in nobody's hands, the pool has none. -/
theorem Accounted.entries_nil (h : s.Accounted 1) : s.entries = [] := by
  have hadmins := h.admins
  have hle : s.admins + 1 ≤ 1 := by
    rw [hadmins]
    split
    · exact Nat.le_refl _
    · exact Nat.zero_le _
  unfold UpstreamPool.admins at hle
  exact List.eq_nil_of_length_eq_zero (by omega)

/-- The entry of an admin stream that is put into the pool is the only one. -/
theorem entries_put (hinsert : ∀ st l, (klistInsert st l).Perm (st :: l)) (h : s.Accounted 1) :
    (s.setPool (s.sockets.pool.putPoolSocket klistInsert (s.entryOf us))).entries =
      [s.entryOf us] := by
  have hperm := (hinsert (s.entryOf us) s.head).filter fun st => st.us.isHttp2
  have hself : (s.entryOf us :: s.head).filter (fun st => st.us.isHttp2) =
      s.entryOf us :: s.head.filter fun st => st.us.isHttp2 := List.filter_cons_of_pos rfl
  have hnone : s.head.filter (fun st => st.us.isHttp2) = [] := h.entries_nil
  rw [hself, hnone] at hperm
  exact List.perm_singleton.mp hperm

/-- An admin stream is put into the pool or destroyed. -/
theorem Accounted.gcSocket (hinsert : ∀ st l, (klistInsert st l).Perm (st :: l))
    (h : s.Accounted 1) (hadmin : us.adminStream = true)
    (hpast : us.expireTime ≤ s.sockets.now) : (s.gcSocket klistInsert us 30).Accounted 0 := by
  rw [gcSocket_eq h.lifeTime hpast]
  split
  · refine Accounted.destroy ?_
    rw [hadmin]
    exact h
  · have hone := @entries_put klistInsert s us hinsert h
    refine { h with admins := ?_, owner := ?_ }
    · unfold UpstreamPool.admins
      rw [hone]
      have hadmins := h.admins
      unfold UpstreamPool.admins at hadmins
      rw [h.entries_nil] at hadmins
      show s.streams.countP _ + 1 + s.dying.length + 0 =
        if s.http2.hasAdminStream = true then 1 else 0
      rw [← hadmins, List.length_nil]
      omega
    · intro st hst hhttp2
      have hmem : st ∈ klistInsert (s.entryOf us) s.head := hst
      rcases List.mem_cons.mp ((hinsert _ _).mem_iff.mp hmem) with rfl | hold
      · exact ⟨hadmin, rfl⟩
      · exact h.owner st hold hhttp2

/-! ## What `gc` leaves in the pool -/

/-- The pool holds one entry of the connection, and its time has not come. -/
def Reusable (s : UpstreamPool) : Prop := ∃ st, s.entries = [st] ∧ s.sockets.now < st.expireTime

/-- Putting an admin stream into the pool makes the connection reusable where its own header was
read less than the life time ago. -/
theorem reusable_gcSocket_iff (hinsert : ∀ st l, (klistInsert st l).Perm (st :: l))
    (h : s.Accounted 1) (hpast : us.expireTime ≤ s.sockets.now) :
    (s.gcSocket klistInsert us 30).Reusable ↔ s.sockets.now < us.expireTime + s.lifeTime := by
  rw [gcSocket_eq h.lifeTime hpast]
  split
  · rename_i hlate
    constructor
    · rintro ⟨st, hentries, -⟩
      have hnone : (s.destroy us).entries = [] := h.entries_nil
      rw [hnone] at hentries
      cases hentries
    · intro hearly
      exact absurd hearly (Int.not_lt.mpr (Int.le_of_lt hlate))
  · have hone := @entries_put klistInsert s us hinsert h
    constructor
    · rintro ⟨st, hentries, hearly⟩
      rw [hone] at hentries
      cases hentries
      exact hearly
    · exact fun hearly => ⟨_, hone, hearly⟩

/-- `get_admin_stream` counts a new admin stream. -/
def withAdmin (s : UpstreamPool) : UpstreamPool :=
  { s with http2 := { s.http2 with hasAdminStream := true }, nextCtx := s.nextCtx + 1 }

/-- The admin stream that `get_admin_stream` makes. -/
def adminUpstream (s : UpstreamPool) : KHttp2Upstream := ⟨s.nextCtx, true, 0, true⟩

/-- `gc` of the admin stream puts it into the pool. -/
theorem gc_admin (hcontainer : us.container = true) (hadmin : us.adminStream = true) (life : ℤ) :
    s.gc klistInsert us life = s.gcSocket klistInsert us 30 := by
  unfold gc
  rw [hcontainer, hadmin]
  rfl

/-- `gc` of another stream makes an admin stream where there is none. -/
theorem gc_other (hcontainer : us.container = true) (hadmin : us.adminStream = false) (life : ℤ) :
    s.gc klistInsert us life =
      if s.http2.hasAdminStream || s.http2.selfGoaway || s.http2.peerGoaway then s
      else s.withAdmin.gcSocket klistInsert s.adminUpstream 30 := by
  have hdestroy : ∀ t : UpstreamPool, t.destroy us = t := by
    intro t
    unfold UpstreamPool.destroy KHttp2Client.releaseAdmin
    rw [hadmin]
    rfl
  unfold gc KHttp2Client.getAdminStream
  rw [hcontainer, hadmin]
  simp only [Bool.not_true, Bool.false_eq_true, if_false, hdestroy]
  split
  · rfl
  · rfl

/-- A new admin stream is in nobody's hands. -/
theorem Accounted.withAdmin (h : s.Accounted 0) (hnone : s.http2.hasAdminStream = false) :
    s.withAdmin.Accounted 1 := by
  refine { h with admins := ?_ }
  have hadmins := h.admins
  rw [hnone] at hadmins
  exact congrArg Nat.succ hadmins

/-- `gc` keeps the connection in order. -/
theorem Accounted.gc (hinsert : ∀ st l, (klistInsert st l).Perm (st :: l))
    (h : s.Accounted us.adminStream.toNat) (hcontainer : us.container = true)
    (hpast : us.expireTime ≤ s.sockets.now) (life : ℤ) :
    (s.gc klistInsert us life).Accounted 0 := by
  cases hadmin : us.adminStream with
  | true =>
    rw [hadmin] at h
    rw [gc_admin hcontainer hadmin]
    exact h.gcSocket hinsert hadmin hpast
  | false =>
    rw [hadmin] at h
    rw [gc_other hcontainer hadmin]
    split
    · exact h
    · rename_i hnone
      simp only [Bool.or_eq_true, not_or, Bool.not_eq_true] at hnone
      exact (h.withAdmin hnone.1.1).gcSocket hinsert rfl h.clock

/-- The upstream is the admin stream, which read a header less than the life time ago itself, or it
is another stream while the pool holds an entry of the connection whose time has not come. (Where
there is no admin stream, a new one is taken for one that read a header at time 0.) -/
def KeepsAdmin (s : UpstreamPool) (us : KHttp2Upstream) : Prop :=
  us.adminStream = true ∧ s.sockets.now < us.expireTime + s.lifeTime ∨
    us.adminStream = false ∧
      ((∃ st ∈ s.entries, s.sockets.now < st.expireTime) ∨
        s.http2.hasAdminStream = false ∧ s.sockets.now < s.lifeTime)

/-- With one admin stream at most, the pool has one entry at most. -/
theorem Accounted.entries_le (h : s.Accounted 0) : s.entries.length ≤ 1 := by
  have hadmins := h.admins
  have hle : s.admins + 0 ≤ 1 := by
    rw [hadmins]
    split
    · exact Nat.le_refl _
    · exact Nat.zero_le _
  unfold UpstreamPool.admins at hle
  omega

/-- A pool with one entry at most is reusable where an entry has time left. -/
theorem Accounted.reusable_iff (h : s.Accounted 0) :
    s.Reusable ↔ ∃ st ∈ s.entries, s.sockets.now < st.expireTime := by
  constructor
  · rintro ⟨st, hentries, hearly⟩
    refine ⟨st, ?_, hearly⟩
    rw [hentries]
    exact List.mem_singleton_self st
  · rintro ⟨st, hst, hearly⟩
    have hle := h.entries_le
    cases hentries : s.entries with
    | nil =>
      rw [hentries] at hst
      cases hst
    | cons st' rest =>
      rw [hentries] at hle hst
      obtain rfl := List.eq_nil_of_length_eq_zero (Nat.le_zero.mp (Nat.le_of_succ_le_succ hle))
      rw [List.mem_singleton.mp hst] at hearly
      exact ⟨st', hentries, hearly⟩

/-- What `gc` leaves in the pool is told from the state before it. -/
theorem reusable_gc_iff (hinsert : ∀ st l, (klistInsert st l).Perm (st :: l))
    (h : s.Accounted us.adminStream.toNat) (hcontainer : us.container = true)
    (hpast : us.expireTime ≤ s.sockets.now) (hself : s.http2.selfGoaway = false)
    (hpeer : s.http2.peerGoaway = false) (life : ℤ) :
    (s.gc klistInsert us life).Reusable ↔ s.KeepsAdmin us := by
  unfold KeepsAdmin
  cases hadmin : us.adminStream with
  | true =>
    rw [hadmin] at h
    rw [gc_admin hcontainer hadmin, reusable_gcSocket_iff hinsert h hpast]
    constructor
    · exact fun hearly => Or.inl ⟨rfl, hearly⟩
    · rintro (⟨-, hearly⟩ | ⟨hother, -⟩)
      · exact hearly
      · cases hother
  | false =>
    rw [hadmin] at h
    rw [gc_other hcontainer hadmin, hself, hpeer, Bool.or_false, Bool.or_false]
    cases hflag : s.http2.hasAdminStream with
    | true =>
      rw [if_pos rfl, h.reusable_iff]
      constructor
      · exact fun hentry => Or.inr ⟨rfl, Or.inl hentry⟩
      · rintro (⟨hother, -⟩ | ⟨-, hentry | ⟨hnone, -⟩⟩)
        · cases hother
        · exact hentry
        · cases hnone
    | false =>
      have hnone := (h.withAdmin hflag).entries_nil
      rw [if_neg Bool.false_ne_true,
        reusable_gcSocket_iff hinsert (h.withAdmin hflag) h.clock]
      have hzero : s.adminUpstream.expireTime + s.withAdmin.lifeTime = s.lifeTime := Int.zero_add _
      rw [hzero]
      constructor
      · exact fun hearly => Or.inr ⟨rfl, Or.inr ⟨rfl, hearly⟩⟩
      · rintro (⟨hother, -⟩ | ⟨-, ⟨st, hst, -⟩ | ⟨-, hearly⟩⟩)
        · cases hother
        · have hempty : s.entries = [] := hnone
          rw [hempty] at hst
          cases hst
        · exact hearly

/-! ## Every step keeps count -/

/-- A stream of the connection in the pool is multi-stream. -/
theorem Accounted.other_of_single (h : s.Accounted n) {st : KUpstream PoolOwner} (hst : st ∈ s.head)
    (hsingle : st.isMultiStream = false) : st.us.isHttp2 = false := by
  by_contra hhttp2
  have hmulti := (h.owner st hst (Bool.not_eq_false _ |>.mp hhttp2)).2
  rw [hsingle] at hmulti
  cases hmulti

/-- Entries that leave the pool are destroyed later, or are taken by others. -/
theorem Accounted.leave (h : s.Accounted 0) {pool : KPoolableSocketContainer PoolOwner}
    {gone taken : List (KUpstream PoolOwner)}
    (hperm : s.head.Perm (pool.getImp.head ++ gone ++ taken))
    (htaken : ∀ st ∈ taken, st.isMultiStream = false)
    (hlife : pool.lifeTime = s.sockets.pool.lifeTime) :
    ((s.setPool pool).safeDestroy gone).Accounted 0 := by
  have hkept : ∀ st ∈ pool.getImp.head, st ∈ s.head := fun st hst =>
    hperm.mem_iff.mpr (List.mem_append_left _ (List.mem_append_left _ hst))
  have hgone : ∀ st ∈ gone, st ∈ s.head := fun st hst =>
    hperm.mem_iff.mpr (List.mem_append_left _ (List.mem_append_right _ hst))
  have hother : taken.filter (fun st => st.us.isHttp2) = [] := by
    rw [List.filter_eq_nil_iff]
    intro st hst
    rw [h.other_of_single (hperm.mem_iff.mpr (List.mem_append_right _ hst)) (htaken st hst)]
    exact Bool.false_ne_true
  refine { h with admins := ?_, owner := ?_, dying := ?_, lifeTime := ?_ }
  · have hadmins := h.admins
    have hlength := (hperm.filter fun st => st.us.isHttp2).length_eq
    rw [List.filter_append, List.filter_append, hother, List.append_nil, List.length_append]
      at hlength
    have hdying : ((gone.map KUpstream.us).filter PoolOwner.isHttp2).length =
        (gone.filter fun st => st.us.isHttp2).length := by
      rw [List.filter_map, List.length_map]
      rfl
    unfold UpstreamPool.admins entries at hadmins
    show s.streams.countP _ + (pool.getImp.head.filter fun st => st.us.isHttp2).length +
      (s.dying ++ (gone.map KUpstream.us).filter PoolOwner.isHttp2).length + 0 =
        if s.http2.hasAdminStream = true then 1 else 0
    rw [← hadmins, List.length_append, hdying, hlength]
    omega
  · exact fun st hst => h.owner st (hkept st hst)
  · intro o ho
    rcases List.mem_append.mp ho with ho | ho
    · exact h.dying o ho
    · obtain ⟨hmem, hhttp2⟩ := List.mem_filter.mp ho
      obtain ⟨st, hst, rfl⟩ := List.mem_map.mp hmem
      exact (h.owner st (hgone st hst) hhttp2).1
  · show 0 < pool.lifeTime
    rw [hlife]
    exact h.lifeTime

/-- An entry of another connection is put into the pool. -/
theorem Accounted.putOther (hinsert : ∀ st l, (klistInsert st l).Perm (st :: l))
    (h : s.Accounted 0) {st : KUpstream PoolOwner} (hother : st.us.isHttp2 = false) :
    (s.setPool (s.sockets.pool.putPoolSocket klistInsert st)).Accounted 0 := by
  have hperm := hinsert st s.head
  refine { h with admins := ?_, owner := ?_ }
  · have hlength := (hperm.filter fun st => st.us.isHttp2).length_eq
    have hneg : ¬(st.us.isHttp2 = true) := Bool.eq_false_iff.mp hother
    have hsame : (st :: s.head).filter (fun st => st.us.isHttp2) =
        s.head.filter fun st => st.us.isHttp2 := List.filter_cons_of_neg hneg
    rw [hsame] at hlength
    have hadmins := h.admins
    unfold UpstreamPool.admins entries at hadmins
    rw [← hlength] at hadmins
    exact hadmins
  · intro st' hst' hhttp2
    rcases List.mem_cons.mp (hperm.mem_iff.mp hst') with rfl | hold
    · rw [hother] at hhttp2
      cases hhttp2
    · exact h.owner st' hold hhttp2

/-- A request gets an upstream that is not the admin stream. -/
theorem Accounted.stream (h : s.Accounted 0) (hadmin : us.adminStream = false)
    (hcontainer : us.container = true) (hpast : us.expireTime ≤ s.sockets.now) (ctx : ℕ) :
    ({ s with streams := us :: s.streams, nextCtx := ctx }).Accounted 0 := by
  refine { h with admins := ?_, container := ?_, past := ?_ }
  · have hadmins := h.admins
    have hcount : (us :: s.streams).countP KHttp2Upstream.adminStream =
        s.streams.countP KHttp2Upstream.adminStream :=
      List.countP_cons_of_neg (Bool.eq_false_iff.mp hadmin)
    unfold UpstreamPool.admins at hadmins ⊢
    rw [hcount]
    exact hadmins
  · intro us' hus'
    rcases List.mem_cons.mp hus' with rfl | hus'
    · exact hcontainer
    · exact h.container us' hus'
  · intro us' hus'
    rcases List.mem_cons.mp hus' with rfl | hus'
    · exact hpast
    · exact h.past us' hus'

/-- A request reads a header. -/
theorem Accounted.readHeader (h : s.Accounted 0) (hus : us ∈ s.streams) :
    (s.readHeader us).Accounted 0 := by
  have hrest : ∀ us' ∈ s.streams.erase us, us' ∈ s.streams := fun us' => List.mem_of_mem_erase
  refine { h with admins := ?_, container := ?_, past := ?_ }
  · have hcount := (List.perm_cons_erase hus).countP_eq KHttp2Upstream.adminStream
    have hadmins := h.admins
    rw [List.countP_cons] at hcount
    unfold UpstreamPool.admins at hadmins ⊢
    rw [hcount] at hadmins
    show (_ :: s.streams.erase us).countP _ + s.entries.length + s.dying.length + 0 = _
    rw [List.countP_cons]
    exact hadmins
  · intro us' hus'
    rcases List.mem_cons.mp hus' with rfl | hus'
    · exact h.container us hus
    · exact h.container us' (hrest us' hus')
  · intro us' hus'
    rcases List.mem_cons.mp hus' with rfl | hus'
    · exact Int.le_refl _
    · exact h.past us' (hrest us' hus')

/-- An upstream that left the pool is destroyed. -/
theorem Accounted.nextDestroy (h : s.Accounted 0) {o : PoolOwner} (ho : o ∈ s.dying) :
    ({ s with
        dying := s.dying.erase o
        http2 := s.http2.releaseAdmin o.adminStream }).Accounted 0 := by
  have hadmin := h.dying o ho
  rw [hadmin]
  refine { h with admins := ?_, dying := fun o' ho' => h.dying o' (List.mem_of_mem_erase ho') }
  have hlength := List.length_erase_of_mem ho
  have hpos := List.length_pos_of_mem ho
  have hadmins := h.admins
  have hle : s.admins + 0 ≤ 1 := by
    rw [hadmins]
    split
    · exact Nat.le_refl _
    · exact Nat.zero_le _
  unfold UpstreamPool.admins at hle
  show s.streams.countP _ + s.entries.length + (s.dying.erase o).length + 0 = 0
  rw [hlength]
  omega

/-- The peer changes its settings. -/
theorem Accounted.setEnableConnect (h : s.Accounted 0) (enableConnect : Bool) :
    (s.setEnableConnect enableConnect).Accounted 0 := by
  let set := fun st : KUpstream PoolOwner =>
    if st.us.isHttp2 then { st with supportWebsocket := enableConnect } else st
  have hset : ∀ st, (set st).us = st.us ∧ (set st).isMultiStream = st.isMultiStream := by
    intro st
    dsimp only [set]
    split
    · exact ⟨rfl, rfl⟩
    · exact ⟨rfl, rfl⟩
  have hhead : (s.setEnableConnect enableConnect).head = s.head.map set := by
    let setAll := fun imp : KPoolableSocketContainerImp PoolOwner =>
      { imp with head := imp.head.map set }
    show ((s.sockets.pool.imp.map setAll).getD KPoolableSocketContainerImp.init).head =
      (s.sockets.pool.imp.getD KPoolableSocketContainerImp.init).head.map set
    cases s.sockets.pool.imp with
    | none => rfl
    | some imp => rfl
  refine { h with admins := ?_, owner := ?_ }
  · have hentries : (s.setEnableConnect enableConnect).entries.length = s.entries.length := by
      unfold entries
      rw [hhead, List.filter_map, List.length_map]
      congr 2
      funext st
      exact congrArg PoolOwner.isHttp2 (hset st).1
    have hadmins := h.admins
    unfold UpstreamPool.admins at hadmins ⊢
    rw [hentries]
    exact hadmins
  · intro st hst hhttp2
    rw [hhead] at hst
    obtain ⟨st', hst', rfl⟩ := List.mem_map.mp hst
    rw [(hset st').1] at hhttp2 ⊢
    rw [(hset st').2]
    exact h.owner st' hst' hhttp2

/-- Every step keeps the connection in order. -/
theorem accounted_step (hinsert : ∀ st l, (klistInsert st l).Perm (st :: l)) (h : s.Accounted 0)
    (e : UpstreamEvent) : (s.step klistInsert e).Accounted 0 := by
  cases e with
  | gc us life =>
    simp only [step]
    split
    · rename_i hus
      exact (h.erase hus).gc hinsert (h.container us hus) (h.past us hus) life
    · exact h
  | destroy us =>
    simp only [step]
    split
    · rename_i hus
      exact (h.erase hus).destroy
    · exact h
  | readHeader us =>
    simp only [step]
    split
    · rename_i hus
      exact h.readHeader hus
    · exact h
  | getPoolSocket websocket room other =>
    obtain ⟨taken, hperm, htaken⟩ := @KPoolableSocketContainer.getPoolSocket_perm PoolOwner
      s.sockets.now websocket (s.newStream room other) s.sockets.pool
    have hleft := h.leave hperm htaken rfl
    simp only [step, getPoolSocket]
    split
    · exact hleft.stream rfl rfl (Int.le_refl _) _
    · exact hleft
  | refresh nowTime =>
    have hperm := @KPoolableSocketContainer.refresh_perm PoolOwner s.sockets.now
      s.sockets.pool nowTime
    rw [← List.append_nil ((s.sockets.pool.refresh s.sockets.now nowTime).1.getImp.head ++ _)]
      at hperm
    refine h.leave hperm (fun _ hst => by cases hst) ?_
    unfold KPoolableSocketContainer.refresh
    cases s.sockets.pool.imp with
    | none => rfl
    | some imp => rfl
  | nextDestroy o =>
    simp only [step]
    split
    · rename_i ho
      exact h.nextDestroy ho
    · exact h
  | otherGc id readHeaderTime isMultiStream supportWebsocket life =>
    simp only [step, KPoolableSocketContainer.gcSocket]
    repeat' split
    · exact h
    · exact h
    · exact h
    · exact h.putOther hinsert rfl
  | goaway self => exact { h with }
  | enableConnect enableConnect => exact h.setEnableConnect enableConnect
  | tick sec =>
    have hlater : s.sockets.now ≤ s.sockets.now + sec := by omega
    exact { h with
      past := fun us hus => Int.le_trans (h.past us hus) hlater
      clock := Int.le_trans h.clock hlater }

/-- A connection stays in order. -/
theorem accounted_run (hinsert : ∀ st l, (klistInsert st l).Perm (st :: l))
    (es : List UpstreamEvent) (h : s.Accounted 0) : (run klistInsert s es).Accounted 0 := by
  induction es generalizing s with
  | nil => exact h
  | cons e es ih => exact ih (accounted_step hinsert h e)

/-! ## Runs -/

/-- The connection has not said goodbye, and a response header was read on it less than the life
time ago. -/
def Fresh (s : UpstreamPool) : Prop :=
  s.http2.selfGoaway = false ∧ s.http2.peerGoaway = false ∧
    ∃ t ∈ s.lastHeader, s.sockets.now < t + s.lifeTime

/-- After each `gc` of a run on a connection in use, the pool can reuse the connection. -/
def StaysReusable (klistInsert : KUpstream PoolOwner → List (KUpstream PoolOwner) →
    List (KUpstream PoolOwner)) (s : UpstreamPool) (es : List UpstreamEvent) : Prop :=
  ∀ (n : ℕ) (us : KHttp2Upstream) (life : ℤ), es[n]? = some (.gc us life) →
    us ∈ (run klistInsert s (es.take n)).streams → (run klistInsert s (es.take n)).Fresh →
      (run klistInsert s (es.take (n + 1))).Reusable

/-- A connection stays reusable exactly in the runs in which each `gc` is one of the admin stream
soon after its own header, or finds an entry of it in the pool whose time has not come. -/
theorem staysReusable_iff (hinsert : ∀ st l, (klistInsert st l).Perm (st :: l)) (now : ℕ) {life : ℕ}
    (hlife : 0 < life) (es : List UpstreamEvent) :
    StaysReusable klistInsert (client now life) es ↔
      ∀ (n : ℕ) (us : KHttp2Upstream) (life' : ℤ), es[n]? = some (.gc us life') →
        us ∈ (run klistInsert (client now life) (es.take n)).streams →
          (run klistInsert (client now life) (es.take n)).Fresh →
            (run klistInsert (client now life) (es.take n)).KeepsAdmin us := by
  have hstep : ∀ (n : ℕ) (us : KHttp2Upstream) (life' : ℤ), es[n]? = some (.gc us life') →
      us ∈ (run klistInsert (client now life) (es.take n)).streams →
        (run klistInsert (client now life) (es.take n)).Fresh →
          ((run klistInsert (client now life) (es.take (n + 1))).Reusable ↔
            (run klistInsert (client now life) (es.take n)).KeepsAdmin us) := by
    intro n us life' he hus hfresh
    have hs : (run klistInsert (client now life) (es.take n)).Accounted 0 :=
      accounted_run hinsert _ (accounted_client now hlife)
    have hnext : run klistInsert (client now life) (es.take (n + 1)) =
        (run klistInsert (client now life) (es.take n)).step klistInsert (.gc us life') := by
      rw [List.take_add_one, he]
      exact List.foldl_append
    rw [hnext]
    generalize run klistInsert (client now life) (es.take n) = s at hs hus hfresh
    have hgc : s.step klistInsert (.gc us life') =
        ({ s with streams := s.streams.erase us }).gc klistInsert us life' := if_pos hus
    rw [hgc]
    exact reusable_gc_iff hinsert (hs.erase hus) (hs.container us hus) (hs.past us hus) hfresh.1
      hfresh.2.1 life'
  constructor
  · intro h n us life' he hus hfresh
    exact (hstep n us life' he hus hfresh).mp (h n us life' he hus hfresh)
  · intro h n us life' he hus hfresh
    exact (hstep n us life' he hus hfresh).mpr (h n us life' he hus hfresh)

/-- Two requests on a connection, one soon after the other. -/
def soonReused : List UpstreamEvent :=
  [.readHeader ⟨0, true, 0, true⟩, .gc ⟨0, true, 100, true⟩ 0, .tick 5,
    .getPoolSocket false true fun _ => false, .readHeader ⟨1, false, 105, true⟩,
    .gc ⟨1, false, 105, true⟩ 0]

/-- They leave the connection reusable. -/
theorem soonReused_staysReusable : StaysReusable List.cons (client 100 60) soonReused := by
  refine (staysReusable_iff (fun _ _ => .refl _) 100 (by decide) soonReused).mpr ?_
  intro n us life he _ _
  rcases n with _ | _ | _ | _ | _ | _ | n
  · cases he
  · cases he
    exact Or.inl ⟨rfl, by decide⟩
  · cases he
  · cases he
  · cases he
  · cases he
    refine Or.inr ⟨rfl, Or.inl ?_⟩
    exact ⟨⟨.http2 0 true, 130, true, false⟩, by decide, by decide⟩
  · simp [soonReused] at he

/-- The second request reads its header 25 seconds after the first, and ends when the entry of the
admin stream has been swept from the pool. -/
def sweptAdmin : List UpstreamEvent :=
  [.readHeader ⟨0, true, 0, true⟩, .gc ⟨0, true, 100, true⟩ 0, .tick 25,
    .getPoolSocket false true fun _ => false, .readHeader ⟨1, false, 125, true⟩, .tick 6,
    .refresh 131, .nextDestroy (.http2 0 true), .gc ⟨1, false, 125, true⟩ 0]

/-- Then the pool has no entry, six seconds after the last header. -/
theorem sweptAdmin_not_staysReusable :
    ¬StaysReusable List.cons (client 100 60) sweptAdmin := by
  intro h
  have hfresh : (run List.cons (client 100 60) (sweptAdmin.take 8)).Fresh :=
    ⟨by decide, by decide, 125, by decide, by decide⟩
  obtain ⟨st, hentries, -⟩ := h 8 ⟨1, false, 125, true⟩ 0 rfl (by decide) hfresh
  have hnone : (run List.cons (client 100 60) (sweptAdmin.take 9)).entries = [] := by decide
  rw [hnone] at hentries
  cases hentries

end UpstreamPool

/-! ## The connection behind its upstreams -/

namespace KHttp2

/-- A connection as its upstreams see it. -/
def asClient (s : KHttp2) : KHttp2Client :=
  ⟨s.hasAdminStream, s.selfGoaway, s.peerGoaway, s.enableConnect⟩

/-- A new connection has the admin stream of its first request. -/
theorem asClient_client (now timeOut sec life : ℕ) (junk : ℕ → Http2FrameHeader) :
    (client now timeOut junk).asClient = (UpstreamPool.client sec life).http2 := by
  unfold client
  rfl

/-- `get_admin_stream`. -/
theorem asClient_getAdminStream {s : KHttp2} (h : s.clientModel = true) :
    s.getAdminStream.asClient = s.asClient.getAdminStream.1 := by
  unfold getAdminStream KHttp2Client.getAdminStream
  rw [h, Bool.not_true, Bool.or_false]
  show (if _ then _ else _ : KHttp2).asClient =
    (if s.hasAdminStream || s.selfGoaway || s.peerGoaway then _ else _ : KHttp2Client × Bool).1
  split
  · rfl
  · unfold newClientStream createStream asClient
    simp only [if_true]
    rfl

/-- `connect` makes a stream where its upstreams are given one. -/
theorem nextCtx_connect (s : KHttp2) :
    s.connect.nextCtx = if s.asClient.connect
      (decide (s.lastSelfSid ≤ 655360) && decide (s.processing < s.maxStream)) then s.nextCtx + 1
    else s.nextCtx := by
  have hnew : ∀ t : KHttp2, (t.newClientStream false).nextCtx = t.nextCtx + 1 := by
    intro t
    unfold newClientStream createStream
    dsimp only
    split
    · rfl
    · rfl
  unfold connect KHttp2Client.connect asClient
  cases hpeer : s.peerGoaway <;> cases hself : s.selfGoaway <;>
    simp only [Bool.true_or, Bool.or_true, Bool.false_or, Bool.not_true, Bool.not_false,
      Bool.false_and, Bool.and_false, Bool.true_and, Bool.false_eq_true, if_true, if_false]
  by_cases hlast : s.lastSelfSid ≤ 655360
  · have hlow : ¬s.lastSelfSid > 655360 := Nat.not_lt.mpr hlast
    by_cases hroom : s.processing < s.maxStream
    · have hfree : ¬s.processing + 1 ≥ s.maxStream + 1 := by omega
      simp only [hlast, hlow, hroom, hfree, decide_true, decide_false, Bool.and_self, if_true,
        if_false, Bool.false_eq_true]
      exact hnew _
    · have hfull : s.processing + 1 ≥ s.maxStream + 1 := by omega
      simp [hlow, hroom, hfull]
  · have hhigh : s.lastSelfSid > 655360 := Nat.not_le.mp hlast
    simp [hlast, hhigh]

/-- `release_admin`. -/
theorem asClient_releaseAdminCount (s : KHttp2) (c : CtxId) :
    (s.releaseAdminCount c).asClient = s.asClient.releaseAdmin (s.ctx c).adminStream := by
  simp only [releaseAdminCount, KHttp2Client.releaseAdmin]
  by_cases hadmin : (s.ctx c).adminStream <;> by_cases hheld : s.state.stream = some c <;>
    simp [hadmin, hheld, log, modify, asClient]

end KHttp2

end Khttpd
