import Khttpd.Analysis.Resting

/-!
# The frame at hand

What the parser knows of the frame that it reads. What happens to streams, windows and header fields
leaves it alone.
-/

set_option autoImplicit false

namespace Khttpd

/-- What is known of the frame at hand. -/
structure AtHand where
  length : ℕ
  padding : ℕ
  flags : UInt8
  deriving DecidableEq, Repr

namespace KHttp2

/-- The frame at hand. -/
def atHand (s : KHttp2) : AtHand := ⟨s.state.length, s.state.padding, s.state.flags⟩

theorem atHand_of_state {s t : KHttp2} (h : t.state = s.state) : t.atHand = s.atHand := by
  unfold atHand
  rw [h]

theorem atHand_of_calm {s t : KHttp2} (h : Calm s t) : t.atHand = s.atHand := atHand_of_state h.state

theorem atHand_foldl {α : Type} {f : KHttp2 → α → KHttp2} (hf : ∀ s a, (f s a).atHand = s.atHand)
    (l : List α) (s : KHttp2) : (l.foldl f s).atHand = s.atHand := by
  induction l generalizing s with
  | nil => rfl
  | cons a l ih => exact (ih _).trans (hf s a)

/-! ## Windows -/

theorem atHand_sendData (s : KHttp2) (c : CtxId) (e : WriteEvent) (len : ℕ) :
    (s.sendData c e len).atHand = s.atHand := by
  unfold sendData pushFrame
  dsimp only
  split <;> rfl

theorem atHand_onWriteWindowReady (s : KHttp2) (c : CtxId) :
    (s.onWriteWindowReady c).atHand = s.atHand := by
  unfold onWriteWindowReady
  split
  · rfl
  · dsimp only
    split
    · exact atHand_of_calm (s.calm_addQueue c)
    · exact (atHand_of_calm (calm_flushQueue _ c)).trans (s.atHand_sendData c _ _)

theorem atHand_checkWriteWaitLoop (nodes : List KHttp2Node) (s : KHttp2) :
    (checkWriteWaitLoop nodes s).atHand = s.atHand := by
  induction nodes generalizing s with
  | nil => rfl
  | cons n nodes ih =>
    unfold checkWriteWaitLoop
    split
    · rfl
    · split
      · exact ih s
      · exact (ih _).trans (s.atHand_onWriteWindowReady _)

theorem atHand_adjustWindows (s : KHttp2) (window : ℕ) :
    (s.adjustWindows window).atHand = s.atHand := by
  have hnode : ∀ (delta : ℤ) (s : KHttp2) (n : KHttp2Node),
      (adjustNode delta s n).atHand = s.atHand := by
    intro delta s n
    unfold adjustNode
    split <;> rfl
  unfold adjustWindows
  exact (atHand_checkWriteWaitLoop _ _).trans (atHand_foldl (hnode _) _ _)

theorem atHand_streamWindowUpdate (s : KHttp2) (window : ℕ) :
    (s.streamWindowUpdate window).atHand = s.atHand := by
  unfold streamWindowUpdate
  split
  · rfl
  · rename_i sid c hnode
    split
    · exact atHand_of_calm (s.calm_terminateStream c _)
    · extract_lets s1 s2
      split
      · exact s2.atHand_onWriteWindowReady c
      · rfl

theorem atHand_useRecvWindow (s : KHttp2) : s.useRecvWindow.1.atHand = s.atHand := by
  unfold useRecvWindow
  extract_lets s1 r
  have hr : r.1.atHand = s1.atHand := atHand_of_calm (s1.calm_sendWindowUpdate _ _ _)
  split
  · exact hr
  · rfl

/-! ## Streams -/

theorem atHand_logData (s : KHttp2) (c : CtxId) (bytes : Bytes) :
    (s.logData c bytes).atHand = s.atHand := by
  unfold logData
  split
  · split <;> rfl
  · rfl

theorem atHand_logEnd (s : KHttp2) (c : CtxId) (fin : Bool) : (s.logEnd c fin).atHand = s.atHand := by
  unfold logEnd
  split <;> rfl

theorem atHand_headersNewStream (s : KHttp2) (p : Bytes) :
    (s.headersNewStream p).1.atHand = s.atHand := by
  have hcreate : s.createStream.1.atHand = s.atHand := by
    unfold createStream
    dsimp only
    split <;> rfl
  unfold headersNewStream
  extract_lets r c fin s1 s2
  exact (atHand_logEnd _ c fin).trans hcreate

theorem atHand_destroyNode (s : KHttp2) (c : CtxId) (node : Option ℕ) :
    (s.destroyNode c node).atHand = s.atHand := by
  cases node <;> rfl

theorem atHand_releaseStream (s : KHttp2) (c : CtxId) : (s.releaseStream c).atHand = s.atHand := by
  unfold releaseStream
  extract_lets ctx s1 s2 s3 s4
  have h4 : s4.atHand = s.atHand := by
    dsimp only [s4]
    split
    · split
      · have h3 : s3.atHand = s.atHand := rfl
        exact (atHand_of_calm (s3.calm_sendRstStream _ _ _)).trans h3
      · rfl
    · rfl
  split
  · exact (s4.atHand_destroyNode c ctx.node).trans h4
  · exact h4

theorem atHand_releaseAdminCount (s : KHttp2) (c : CtxId) :
    (s.releaseAdminCount c).atHand = s.atHand := by
  unfold releaseAdminCount
  dsimp only
  split <;> split <;> rfl

theorem atHand_releaseStateStream (s : KHttp2) : s.releaseStateStream.atHand = s.atHand := by
  unfold releaseStateStream
  split
  · rfl
  · rename_i c hstream
    extract_lets s1 s2 s3
    show s3.atHand = s.atHand
    dsimp only [s3]
    split
    · rename_i hopen
      have hserver : s.clientModel = false := by
        simp only [Bool.and_eq_true, Bool.not_eq_true'] at hopen
        exact hopen.2
      have h1 : s1.atHand = s.atHand := by
        refine (atHand_releaseAdminCount _ c).trans ((atHand_releaseStream _ c).trans ?_)
        exact atHand_of_calm (s.calm_sinkEnd c hserver)
      have h2 : s2.atHand = s1.atHand := by
        dsimp only [s2]
        split <;> rfl
      exact (s2.atHand_destroyNode c _).trans (h2.trans h1)
    · rfl

/-! ## Header blocks -/

theorem atHand_getIndexedHeader {s t : KHttp2} {index : ℕ} {nameOnly : Bool}
    (h : s.getIndexedHeader index nameOnly = some t) : t.atHand = s.atHand := by
  unfold getIndexedHeader at h
  split at h
  · cases h
  · split at h
    · cases h
      rfl
    · extract_lets index' e s1 name value at h
      have h1 : s1.atHand = s.atHand := by
        dsimp only [s1]
        split <;> rfl
      split at h
      · cases h
        exact h1
      · cases h

theorem atHand_insertHeader (s : KHttp2) : s.insertHeader.atHand = s.atHand := by
  unfold insertHeader
  split <;> rfl

theorem atHand_deliverHeader (s : KHttp2) : s.deliverHeader.atHand = s.atHand := by
  unfold deliverHeader
  split
  · split
    · rfl
    · split
      · rfl
      · dsimp only
        split <;> rfl
  · rfl

theorem atHand_onHeaderSuccess (s : KHttp2) (c : CtxId) :
    (s.onHeaderSuccess c).atHand = s.atHand := by
  have hread : ∀ (t : KHttp2) (e : Option ReadEvent), (t.onRead c e 0).atHand = t.atHand :=
    fun t e => atHand_of_calm (t.calm_onRead c e 0)
  have hsuccess : ∀ t : KHttp2, (t.headerSuccess c).atHand = t.atHand := by
    intro t
    unfold headerSuccess
    extract_lets t1 t2 e t3
    have h1 : t1.atHand = t.atHand := by
      dsimp only [t1]
      split
      · rfl
      · unfold constructCookieHeader
        split <;> rfl
    split
    · exact (hread _ e).trans h1
    · exact h1
  unfold onHeaderSuccess
  extract_lets ctx s1 s2
  have h1 : s1.atHand = s.atHand := by
    dsimp only [s1]
    split <;> rfl
  split
  · exact (hread _ _).trans h1
  · have h2 : s2.atHand = s.atHand := by
      dsimp only [s2]
      split <;> exact h1
    split
    · exact (hsuccess s2).trans h2
    · exact h2

end KHttp2

end Khttpd
