import Khttpd.Analysis.CookieFree
import Khttpd.Analysis.Resting

/-!
# Cookies

The cookie fields of a header block are kept by their stream and handed to its sink as one header
when a block ends. They stay kept: when the trailers of the request end, the same header is handed
over again. A stream hands its cookies over once and unchanged exactly when no trailer block ends
for a request that came with cookies.
-/

set_option autoImplicit false

namespace Khttpd

/-! ## The log of a stream -/

/-- The value that `add_cookie` keeps. -/
def Ev.cookieField : Ev → Option Bytes
  | .addCookie _ value => some value
  | _ => none

/-- The value of a cookie header that the sink is given. -/
def Ev.cookieValue : Ev → Option Bytes
  | .cookieHeader _ value | .parseHeader _ _ value => some value
  | _ => none

/-- The cookie fields that a log of a stream tells of. -/
def cookieFields (l : List Ev) : List Bytes := l.filterMap Ev.cookieField

/-- The cookie headers that a log of a stream tells of. -/
def cookieHeaders (l : List Ev) : List Bytes := l.filterMap Ev.cookieValue

/-- The fields joined by a semicolon and a space, as one header; no header without fields. -/
def joinedHeader (fields : List Bytes) : List Bytes :=
  if fields = [] then [] else [[59, 32].intercalate fields]

/-- The log of a stream up to the end of the header block of its request. -/
def requestPart (c : CtxId) (l : List Ev) : List Ev := l.takeWhile fun e => e ≠ .headerSuccess c

/-- The log of a stream from the end of the header block of its request on. -/
def laterPart (c : CtxId) (l : List Ev) : List Ev := l.dropWhile fun e => e ≠ .headerSuccess c

/-- The sink gets the cookies of a request once: with its header block, joined in order, and
nothing with what follows. -/
structure CookiesOnce (c : CtxId) (l : List Ev) : Prop where
  early : .headerSuccess c ∉ l → cookieHeaders l = []
  joined : .headerSuccess c ∈ l →
    cookieHeaders (requestPart c l) = joinedHeader (cookieFields (requestPart c l))
  once : .headerSuccess c ∈ l → cookieFields (requestPart c l) ≠ [] →
    cookieHeaders (laterPart c l) = []

/-- What is logged when a header block of a stream ends. -/
def blockEnd (c : CtxId) (l : List Ev) : List Ev :=
  (joinedHeader (cookieFields l)).map (.cookieHeader c) ++ [.headerSuccess c]

/-- How the source writes the log of a stream. -/
inductive CookieLog (c : CtxId) : List Ev → Prop
  | nil : CookieLog c []
  | field (value : Bytes) {l : List Ev} (h : CookieLog c l) :
      CookieLog c (l ++ [.addCookie c value])
  | done {l : List Ev} (h : CookieLog c l) : CookieLog c (l ++ blockEnd c l)

/-- A block with trailers ended for a request that came with cookies. -/
def CookiesAgain (c : CtxId) (l : List Ev) : Prop :=
  cookieFields (requestPart c l) ≠ [] ∧ 2 ≤ l.count (.headerSuccess c)

/-! ### Parts of a log -/

theorem cookieFields_append (l m : List Ev) :
    cookieFields (l ++ m) = cookieFields l ++ cookieFields m := List.filterMap_append

theorem cookieHeaders_append (l m : List Ev) :
    cookieHeaders (l ++ m) = cookieHeaders l ++ cookieHeaders m := List.filterMap_append

theorem requestPart_append_of_mem {c : CtxId} {l : List Ev} (h : .headerSuccess c ∈ l)
    (m : List Ev) : requestPart c (l ++ m) = requestPart c l := by
  induction l with
  | nil => cases h
  | cons e l ih =>
    by_cases he : e = .headerSuccess c
    · simp [requestPart, he]
    · have hl : .headerSuccess c ∈ l := (List.mem_cons.mp h).resolve_left fun h => he h.symm
      simpa [requestPart, he] using ih hl

theorem laterPart_append_of_mem {c : CtxId} {l : List Ev} (h : .headerSuccess c ∈ l)
    (m : List Ev) : laterPart c (l ++ m) = laterPart c l ++ m := by
  induction l with
  | nil => cases h
  | cons e l ih =>
    by_cases he : e = .headerSuccess c
    · simp [laterPart, he]
    · have hl : .headerSuccess c ∈ l := (List.mem_cons.mp h).resolve_left fun h => he h.symm
      simpa [laterPart, he] using ih hl

theorem requestPart_append_of_notMem {c : CtxId} {l : List Ev} (h : .headerSuccess c ∉ l)
    (m : List Ev) : requestPart c (l ++ m) = l ++ requestPart c m := by
  refine List.takeWhile_append_of_pos fun e he => ?_
  simp only [ne_eq, decide_eq_true_eq]
  rintro rfl
  exact h he

theorem laterPart_append_of_notMem {c : CtxId} {l : List Ev} (h : .headerSuccess c ∉ l)
    (m : List Ev) : laterPart c (l ++ m) = laterPart c m := by
  refine List.dropWhile_append_of_pos fun e he => ?_
  simp only [ne_eq, decide_eq_true_eq]
  rintro rfl
  exact h he

/-! ### The end of a block -/

section BlockEnd

variable (c : CtxId) (l : List Ev)

theorem mem_blockEnd : .headerSuccess c ∈ blockEnd c l := by simp [blockEnd]

theorem count_blockEnd : (blockEnd c l).count (.headerSuccess c) = 1 := by
  unfold blockEnd joinedHeader
  split <;> simp

theorem cookieFields_blockEnd : cookieFields (blockEnd c l) = [] := by
  unfold blockEnd joinedHeader
  split <;> simp [cookieFields, Ev.cookieField]

theorem cookieHeaders_blockEnd : cookieHeaders (blockEnd c l) = joinedHeader (cookieFields l) := by
  unfold blockEnd joinedHeader
  split <;> simp [cookieHeaders, Ev.cookieValue]

theorem requestPart_blockEnd :
    requestPart c (blockEnd c l) = (joinedHeader (cookieFields l)).map (.cookieHeader c) := by
  unfold blockEnd joinedHeader requestPart
  split <;> simp

theorem laterPart_blockEnd : laterPart c (blockEnd c l) = [.headerSuccess c] := by
  unfold blockEnd joinedHeader laterPart
  split <;> simp

end BlockEnd

/-! ### The whole log -/

theorem cookieHeaders_map (c : CtxId) (values : List Bytes) :
    cookieHeaders (values.map (.cookieHeader c)) = values := by
  have hvalue : Ev.cookieValue ∘ Ev.cookieHeader c = some := rfl
  rw [cookieHeaders, List.filterMap_map, hvalue, List.filterMap_some]

theorem cookieFields_map (c : CtxId) (values : List Bytes) :
    cookieFields (values.map (.cookieHeader c)) = [] := by
  simp [cookieFields, Ev.cookieField, List.filterMap_map]

/-- A log without the end of a block tells of no cookie header. -/
theorem CookieLog.early {c : CtxId} {l : List Ev} (h : CookieLog c l)
    (hnone : .headerSuccess c ∉ l) : cookieHeaders l = [] := by
  induction h with
  | nil => rfl
  | field value h ih =>
    rw [cookieHeaders_append, ih fun hmem => hnone (List.mem_append_left _ hmem)]
    rfl
  | done h => exact absurd (List.mem_append_right _ (mem_blockEnd c _)) hnone

/-- The request part of a log tells of the joined header. -/
theorem CookieLog.joined {c : CtxId} {l : List Ev} (h : CookieLog c l)
    (hmem : .headerSuccess c ∈ l) :
    cookieHeaders (requestPart c l) = joinedHeader (cookieFields (requestPart c l)) := by
  induction h with
  | nil => cases hmem
  | @field value l h ih =>
    have hl : .headerSuccess c ∈ l := by simpa using hmem
    rw [requestPart_append_of_mem hl]
    exact ih hl
  | @done l h ih =>
    by_cases hl : .headerSuccess c ∈ l
    · rw [requestPart_append_of_mem hl]
      exact ih hl
    · rw [requestPart_append_of_notMem hl, requestPart_blockEnd, cookieHeaders_append,
        cookieFields_append, h.early hl, cookieHeaders_map, cookieFields_map, List.append_nil,
        List.nil_append]

/-- Behind the request part of a request with cookies, a log tells of a cookie header as soon as
another block ended. -/
theorem CookieLog.later {c : CtxId} {l : List Ev} (h : CookieLog c l)
    (hmem : .headerSuccess c ∈ l) (hfields : cookieFields (requestPart c l) ≠ []) :
    cookieHeaders (laterPart c l) = [] ↔ l.count (.headerSuccess c) ≤ 1 := by
  induction h with
  | nil => cases hmem
  | @field value l h ih =>
    have hl : .headerSuccess c ∈ l := by simpa using hmem
    rw [requestPart_append_of_mem hl] at hfields
    rw [laterPart_append_of_mem hl, cookieHeaders_append, List.count_append]
    simpa [cookieHeaders, Ev.cookieValue] using ih hl hfields
  | @done l h ih =>
    rw [List.count_append, count_blockEnd]
    by_cases hl : .headerSuccess c ∈ l
    · rw [requestPart_append_of_mem hl] at hfields
      have hcount : 0 < l.count (.headerSuccess c) := List.count_pos_iff.mpr hl
      have hkept : cookieFields l ≠ [] := by
        intro hnil
        apply hfields
        have hsub : (requestPart c l).Sublist l := List.takeWhile_sublist _
        have hfm := hsub.filterMap Ev.cookieField
        rw [show l.filterMap Ev.cookieField = [] from hnil] at hfm
        exact List.sublist_nil.mp hfm
      have hjoin : joinedHeader (cookieFields l) ≠ [] := by simp [joinedHeader, hkept]
      rw [laterPart_append_of_mem hl, cookieHeaders_append, cookieHeaders_blockEnd]
      constructor
      · intro hnil
        exact absurd (List.append_eq_nil_iff.mp hnil).2 hjoin
      · intro hle
        omega
    · have hcount : l.count (.headerSuccess c) = 0 := List.count_eq_zero.mpr hl
      rw [laterPart_append_of_notMem hl, laterPart_blockEnd, hcount]
      simp [cookieHeaders, Ev.cookieValue]

/-- A log tells of cookies handed over once exactly when no trailers ended for a request with
cookies. -/
theorem CookieLog.once_iff {c : CtxId} {l : List Ev} (h : CookieLog c l) :
    CookiesOnce c l ↔ ¬CookiesAgain c l := by
  constructor
  · rintro honce ⟨hfields, hcount⟩
    have hmem : .headerSuccess c ∈ l :=
      List.count_pos_iff.mp (Nat.lt_of_lt_of_le Nat.zero_lt_two hcount)
    have hle := (h.later hmem hfields).mp (honce.once hmem hfields)
    omega
  · intro hnot
    refine ⟨h.early, h.joined, fun hmem hfields => (h.later hmem hfields).mpr ?_⟩
    refine Nat.le_of_not_lt fun hlt => hnot ⟨hfields, hlt⟩

theorem cookiesAgain_field (c : CtxId) (l : List Ev) (value : Bytes) :
    CookiesAgain c (l ++ [.addCookie c value]) ↔ CookiesAgain c l := by
  unfold CookiesAgain
  rw [List.count_append]
  by_cases hl : .headerSuccess c ∈ l
  · rw [requestPart_append_of_mem hl]
    simp
  · have hcount : l.count (.headerSuccess c) = 0 := List.count_eq_zero.mpr hl
    simp [hcount]

theorem cookiesAgain_done (c : CtxId) (l : List Ev) :
    CookiesAgain c (l ++ blockEnd c l) ↔
      CookiesAgain c l ∨ .headerSuccess c ∈ l ∧ cookieFields (requestPart c l) ≠ [] := by
  unfold CookiesAgain
  rw [List.count_append, count_blockEnd]
  by_cases hl : .headerSuccess c ∈ l
  · have hcount : 0 < l.count (.headerSuccess c) := List.count_pos_iff.mpr hl
    rw [requestPart_append_of_mem hl]
    constructor
    · rintro ⟨hfields, -⟩
      exact Or.inr ⟨hl, hfields⟩
    · rintro (⟨hfields, -⟩ | ⟨-, hfields⟩)
      · exact ⟨hfields, by omega⟩
      · exact ⟨hfields, by omega⟩
  · have hcount : l.count (.headerSuccess c) = 0 := List.count_eq_zero.mpr hl
    simp [hcount, hl]

namespace KHttp2

/-! ## Handlers -/

theorem cookieFree_fail (s : KHttp2) (status : ℕ) : CookieFree s (s.fail status).1 :=
  s.cookieFree_close true status

theorem cookieFree_stateSave (s : KHttp2) (p : Bytes) (h : Handler) :
    CookieFree s (s.stateSave p h).1 := by
  unfold stateSave
  split
  · exact s.cookieFree_fail _
  · exact .refl s

theorem cookieFree_statePreface (s : KHttp2) (p : Bytes) : CookieFree s (s.statePreface p).1 := by
  unfold statePreface
  split
  · exact s.cookieFree_stateSave p _
  · split
    · exact s.cookieFree_fail _
    · exact .refl s

theorem cookieFree_statePrefaceEnd (s : KHttp2) (p : Bytes) :
    CookieFree s (s.statePrefaceEnd p).1 := by
  unfold statePrefaceEnd
  split
  · exact s.cookieFree_stateSave p _
  · split
    · exact s.cookieFree_fail _
    · exact .refl s

theorem cookieFree_stateHead (s : KHttp2) (p : Bytes) : CookieFree s (s.stateHead p).1 := by
  unfold stateHead
  split
  · exact s.cookieFree_stateSave p _
  · extract_lets length type flags sid s1 s2 s3
    have h1 : CookieFree s s1 := s.cookieFree_setState _
    have h2 : CookieFree s1 s2 := s1.cookieFree_log fun _ => rfl
    have h3 : CookieFree s2 s3 := by
      dsimp only [s3]
      split
      · exact .refl s2
      · exact s2.cookieFree_checkStreamTimeout
    exact (h1.trans h2).trans h3

theorem cookieFree_stateSkip (s : KHttp2) (p : Bytes) : CookieFree s (s.stateSkip p).1 := by
  unfold stateSkip
  split
  · exact (s.cookieFree_setState _).trans (cookieFree_stateSave _ _ _)
  · exact .refl s

theorem cookieFree_stateSkipPadded (s : KHttp2) (p : Bytes) :
    CookieFree s (s.stateSkipPadded p).1 := .of_fields rfl rfl rfl rfl

theorem cookieFree_endFrame (s : KHttp2) (p : Bytes) : CookieFree s (s.endFrame p).1 := by
  unfold endFrame
  split
  · exact s.cookieFree_stateSkipPadded p
  · exact .refl s

/-! ### DATA -/

theorem cookieFree_useRecvWindow (s : KHttp2) : CookieFree s s.useRecvWindow.1 := by
  unfold useRecvWindow
  extract_lets s1 r
  have h1 : CookieFree s s1 := .of_fields rfl rfl rfl rfl
  have hr : CookieFree s1 r.1 := s1.cookieFree_sendWindowUpdate _ _ _
  split
  · exact (h1.trans hr).trans (.of_fields rfl rfl rfl rfl)
  · exact h1

theorem cookieFree_dataStream (s : KHttp2) (sendWindowFlag : Bool) (p : Bytes) :
    CookieFree s (s.dataStream sendWindowFlag p).1 := by
  have hend : ∀ (t : KHttp2) (b : Bool), CookieFree t
      ((if b then t.startWrite else t).stateSkipPadded p).1 := fun t b =>
    (t.cookieFree_ite_startWrite b).trans (cookieFree_stateSkipPadded _ p)
  unfold dataStream
  split
  · exact hend s sendWindowFlag
  · rename_i c hnode
    extract_lets s1 r s2
    have h1 : CookieFree s s1 := s.cookieFree_modify c rfl rfl
    have h2 : CookieFree s1 s2 := s1.cookieFree_setState _
    split
    · exact (s.cookieFree_terminateStream c _).trans (cookieFree_stateSkipPadded _ p)
    · split
      · exact (s.cookieFree_terminateStream c _).trans (cookieFree_stateSkipPadded _ p)
      · split
        · exact (h1.trans (s1.cookieFree_terminateStream c _)).trans (hend _ _)
        · exact (h1.trans h2).trans (s2.cookieFree_ite_startWrite _)

theorem cookieFree_dataFlow (s : KHttp2) (p : Bytes) : CookieFree s (s.dataFlow p).1 := by
  unfold dataFlow
  split
  · exact s.cookieFree_fail _
  · exact s.cookieFree_useRecvWindow.trans (cookieFree_dataStream _ _ p)

theorem cookieFree_stateData (s : KHttp2) (p : Bytes) : CookieFree s (s.stateData p).1 := by
  unfold stateData
  split
  · split
    · exact s.cookieFree_fail _
    · split
      · exact s.cookieFree_stateSave _ _
      · extract_lets s1
        have h1 : CookieFree s s1 := s.cookieFree_setState _
        split
        · exact h1.trans (s1.cookieFree_fail _)
        · exact (h1.trans (s1.cookieFree_setState _)).trans (cookieFree_dataFlow _ _)
  · exact s.cookieFree_dataFlow p

theorem cookieFree_wakeReader (s : KHttp2) (c : CtxId) (fin : Bool) :
    CookieFree s (s.wakeReader c fin) := by
  unfold wakeReader
  split
  · exact .refl s
  · extract_lets s1 r
    have h1 : CookieFree s s1 := (s.cookieFree_modify c rfl rfl).trans (cookieFree_flushQueue _ c)
    split
    · exact h1.trans (s1.cookieFree_onRead c _ _)
    · exact (h1.trans (s1.cookieFree_copyReadBuffer c _)).trans (cookieFree_onRead _ c _ _)

theorem cookieFree_stateReadData (s : KHttp2) (p : Bytes) :
    CookieFree s (s.stateReadData p).1 := by
  unfold stateReadData
  split
  · exact s.cookieFree_stateSkipPadded p
  · rename_i c hstream
    extract_lets size bytes s1 s2 p' s3
    have h1 : CookieFree s s1 := s.cookieFree_modify c rfl rfl
    have h2 : CookieFree s s2 := by
      dsimp only [s2]
      split
      · exact .refl s
      · exact ((h1.trans (s1.cookieFree_logData c _)).trans (cookieFree_wakeReader _ c false)).trans
          (cookieFree_setState _ _)
    have h3 : CookieFree s2 s3 := by
      dsimp only [s3]
      split
      · exact ((s2.cookieFree_modify c rfl rfl).trans (cookieFree_log _ fun _ => rfl)).trans
          (cookieFree_wakeReader _ c true)
      · exact .refl s2
    split
    · exact h2.trans (s2.cookieFree_stateSave _ _)
    · exact (h2.trans h3).trans (s3.cookieFree_endFrame _)

/-! ### Header blocks -/

theorem cookieFree_handleContinuation (s : KHttp2) (p : Bytes) (h : Handler) :
    CookieFree s (s.handleContinuation p h).1 := by
  unfold handleContinuation
  extract_lets len skip s1 p1 head s2
  have h1 : CookieFree s s1 := s.cookieFree_setState _
  have h2 : CookieFree s1 s2 := s1.cookieFree_setState _
  split
  · exact h1.trans (s1.cookieFree_stateSave _ _)
  · split
    · exact h1.trans (s1.cookieFree_fail _)
    · split
      · exact (h1.trans h2).trans (s2.cookieFree_fail _)
      · exact h1.trans h2

theorem cookieFree_getIndexedHeader {s t : KHttp2} {index : ℕ} {nameOnly : Bool}
    (h : s.getIndexedHeader index nameOnly = some t) : CookieFree s t := by
  unfold getIndexedHeader at h
  split at h
  · cases h
  · split at h
    · cases h
      exact s.cookieFree_setState _
    · extract_lets index' e s1 name value at h
      split at h
      · cases h
        have h1 : CookieFree s s1 := by
          dsimp only [s1]
          split
          · exact s.cookieFree_setFault
          · exact .refl s
        exact h1.trans (s1.cookieFree_setState _)
      · cases h

theorem cookieFree_sinkParseHeader (s : KHttp2) (c : CtxId) (name value : Bytes) :
    CookieFree s (s.sinkParseHeader c name value) := by
  unfold sinkParseHeader
  apply s.cookieFree_modify c
  · split
    · split <;> rfl
    · split <;> rfl
  · split
    · split <;> rfl
    · split <;> rfl

theorem cookieFree_insertHeader (s : KHttp2) : CookieFree s s.insertHeader := by
  unfold insertHeader
  split
  · extract_lets name value
    have h1 : CookieFree s { s with hpack := s.hpack.addHeader name value } :=
      .of_fields rfl rfl rfl rfl
    exact (h1.trans (cookieFree_log _ (e := .addHeader name value) fun _ => rfl)).trans
      (cookieFree_setState _ _)
  · exact .refl s

theorem cookieFree_stateHeaderBlock (s : KHttp2) (p : Bytes) :
    CookieFree s (s.stateHeaderBlock p).1 := by
  unfold stateHeaderBlock
  split
  · exact s.cookieFree_stateSave _ _
  · split
    · exact s.cookieFree_handleContinuation _ _
    · extract_lets s1
      have h1 : CookieFree s s1 := by
        dsimp only [s1]
        split
        · exact s.cookieFree_setState _
        · exact .refl s
      refine h1.trans ?_
      split
      · exact s1.cookieFree_stateSave _ _
      · exact s1.cookieFree_fail _
      · exact s1.cookieFree_fail _
      · rename_i value used hvalue
        extract_lets s2 p1 named
        have h2 : CookieFree s1 s2 := s1.cookieFree_setState _
        refine h2.trans ?_
        split
        · split
          · exact s2.cookieFree_fail _
          · exact cookieFree_getIndexedHeader ‹_›
        · split
          · split
            · exact s2.cookieFree_fail _
            · exact .of_fields rfl rfl rfl rfl
          · cases hnamed : named with
            | none => exact s2.cookieFree_fail _
            | some s3 =>
              have h3 : CookieFree s2 s3 := by
                dsimp only [named] at hnamed
                split at hnamed
                · cases hnamed
                  exact s2.cookieFree_setState _
                · exact cookieFree_getIndexedHeader hnamed
              exact h3.trans (.of_fields rfl rfl rfl rfl)

theorem cookieFree_stateFieldLen (s : KHttp2) (p : Bytes) : CookieFree s (s.stateFieldLen p).1 := by
  unfold stateFieldLen
  split
  · exact s.cookieFree_handleContinuation _ _
  · split
    · exact s.cookieFree_fail _
    · split
      · exact s.cookieFree_stateSave _ _
      · split
        · exact s.cookieFree_stateSave _ _
        · exact s.cookieFree_fail _
        · exact s.cookieFree_fail _
        · extract_lets s1 p1
          have h1 : CookieFree s s1 := s.cookieFree_setState _
          split
          · exact h1
          · split
            · exact h1
            · exact h1.trans (.of_fields rfl rfl rfl rfl)

theorem cookieFree_fieldNext (s : KHttp2) (p : Bytes) (h : Handler) :
    CookieFree s (s.fieldNext p h).1 := by
  unfold fieldNext
  split
  · exact .refl s
  · split
    · exact s.cookieFree_stateSave p h
    · split
      · exact s.cookieFree_fail _
      · exact s.cookieFree_handleContinuation p h

theorem cookieFree_stateFieldHuff (codes : HuffDecodeCodes) (s : KHttp2) (p : Bytes) :
    CookieFree s (s.stateFieldHuff codes p).1 := by
  unfold stateFieldHuff
  extract_lets size s1
  have h1 : CookieFree s s1 := s.cookieFree_setState _
  split
  · exact h1.trans (s1.cookieFree_fail _)
  · exact (h1.trans (s1.cookieFree_setState _)).trans (cookieFree_fieldNext _ _ _)

theorem cookieFree_stateFieldRaw (s : KHttp2) (p : Bytes) : CookieFree s (s.stateFieldRaw p).1 := by
  unfold stateFieldRaw
  exact ((s.cookieFree_setState _).trans (cookieFree_setState _ _)).trans
    (cookieFree_fieldNext _ _ _)

theorem cookieFree_stateFieldSkip (s : KHttp2) (p : Bytes) :
    CookieFree s (s.stateFieldSkip p).1 := by
  unfold stateFieldSkip
  exact (s.cookieFree_setState _).trans (cookieFree_fieldNext _ _ _)

/-! ### The other frames -/

theorem cookieFree_logEnd (s : KHttp2) (c : CtxId) (fin : Bool) :
    CookieFree s (s.logEnd c fin) := by
  unfold logEnd
  split
  · exact s.cookieFree_log fun _ => rfl
  · exact .refl s

theorem cookieFree_headersForStream (s : KHttp2) (c : CtxId) (p : Bytes) :
    CookieFree s (s.headersForStream c p).1 := by
  unfold headersForStream
  extract_lets s1 s2 fin
  have h1 : CookieFree s s1 := s.cookieFree_removeQueue c
  have h2 : CookieFree s1 s2 := s1.cookieFree_setState _
  split
  · exact h1
  · exact ((h1.trans h2).trans (s2.cookieFree_modify c rfl rfl)).trans (cookieFree_logEnd _ c fin)

theorem cookieFree_statePriority (s : KHttp2) (p : Bytes) : CookieFree s (s.statePriority p).1 := by
  unfold statePriority
  split
  · exact s.cookieFree_fail _
  · split
    · exact s.cookieFree_stateSave p _
    · split
      · exact s.cookieFree_fail _
      · exact .refl s

theorem cookieFree_stateRstStream (s : KHttp2) (p : Bytes) :
    CookieFree s (s.stateRstStream p).1 := by
  unfold stateRstStream
  split
  · exact s.cookieFree_fail _
  · split
    · exact s.cookieFree_stateSave p _
    · split
      · exact s.cookieFree_fail _
      · split
        · exact .refl s
        · rename_i c hnode
          extract_lets ctx s1
          have h1 : CookieFree s s1 :=
            (s.cookieFree_resetStream c).trans (cookieFree_modify _ c rfl rfl)
          exact h1.trans (s1.cookieFree_wakeReset c ctx)

theorem cookieFree_stateSettings (s : KHttp2) (p : Bytes) : CookieFree s (s.stateSettings p).1 := by
  unfold stateSettings
  split
  · split
    · exact s.cookieFree_fail _
    · exact .refl s
  · split
    · exact s.cookieFree_fail _
    · exact s.cookieFree_sendSettingsAck

theorem cookieFree_stateSettingsParams (s : KHttp2) (p : Bytes) :
    CookieFree s (s.stateSettingsParams p).1 := by
  unfold stateSettingsParams
  split
  · exact .refl s
  · split
    · exact s.cookieFree_stateSave p _
    · extract_lets s1 id value next
      have h1 : CookieFree s s1 := s.cookieFree_setState _
      have hlog : CookieFree s (s1.log (.setting id value)) :=
        h1.trans (s1.cookieFree_log fun _ => rfl)
      clear_value id
      split
      · split
        · exact h1.trans (s1.cookieFree_fail _)
        · exact hlog.trans (cookieFree_adjustWindows _ value)
      · split
        · exact h1.trans (s1.cookieFree_fail _)
        · exact hlog.trans (.of_fields rfl rfl rfl rfl)
      · exact hlog.trans (.of_fields rfl rfl rfl rfl)
      · exact hlog

theorem cookieFree_statePing (s : KHttp2) (p : Bytes) : CookieFree s (s.statePing p).1 := by
  unfold statePing
  split
  · exact s.cookieFree_fail _
  · split
    · exact s.cookieFree_stateSave p _
    · split
      · exact .refl s
      · exact (s.cookieFree_pushGetFrame _ _ _ _ _ _).trans (cookieFree_startWrite _)

theorem cookieFree_stateGoaway (s : KHttp2) (p : Bytes) : CookieFree s (s.stateGoaway p).1 := by
  unfold stateGoaway
  split
  · exact s.cookieFree_fail _
  · split
    · exact s.cookieFree_stateSave p _
    · exact .of_fields rfl rfl rfl rfl

theorem cookieFree_streamWindowUpdate (s : KHttp2) (window : ℕ) :
    CookieFree s (s.streamWindowUpdate window) := by
  unfold streamWindowUpdate
  split
  · exact .refl s
  · rename_i c hnode
    split
    · exact s.cookieFree_terminateStream c _
    · extract_lets s1 s2
      have h1 : CookieFree s s1 := s.cookieFree_log fun _ => rfl
      have h2 : CookieFree s1 s2 := s1.cookieFree_modify c rfl rfl
      split
      · exact (h1.trans h2).trans (s2.cookieFree_onWriteWindowReady c)
      · exact h1.trans h2

theorem cookieFree_stateWindowUpdate (s : KHttp2) (p : Bytes) :
    CookieFree s (s.stateWindowUpdate p).1 := by
  unfold stateWindowUpdate
  split
  · exact s.cookieFree_fail _
  · split
    · exact s.cookieFree_stateSave p _
    · extract_lets window next s0 s1
      have h1 : CookieFree s s1 :=
        (s.cookieFree_log (e := .windowUpdate none window) fun _ => rfl).trans
          (.of_fields rfl rfl rfl rfl)
      split
      · exact s.cookieFree_streamWindowUpdate window
      · split
        · exact s.cookieFree_fail _
        · refine h1.trans ?_
          dsimp only
          split
          · exact s1.cookieFree_checkWriteWait
          · exact .refl s1

theorem cookieFree_stateAltsvc (s : KHttp2) (p : Bytes) : CookieFree s (s.stateAltsvc p).1 := by
  unfold stateAltsvc
  split
  · exact s.cookieFree_fail _
  · split
    · exact s.cookieFree_stateSave p _
    · exact .refl s

/-! ### Handlers that keep or hand over cookies -/

/-- What a handler that ends no header block does about cookies. -/
inductive CookieStep (s : KHttp2) : KHttp2 → Prop
  | free {t : KHttp2} (h : CookieFree s t) : CookieStep s t
  | field {t u : KHttp2} (c : CtxId) (value : Bytes) (hstream : s.state.stream = some c)
      (hfirst : CookieFree s t) (hlast : CookieFree (t.addCookie c value) u) : CookieStep s u
  | create {t u : KHttp2} (hfirst : CookieFree s t) (hlast : CookieFree t.createStream.1 u) :
      CookieStep s u

/-- A step that has nothing to do with cookies may come first, if the parser keeps its stream. -/
theorem CookieStep.after {s t u : KHttp2} (hst : CookieFree s t)
    (hstream : t.state.stream = s.state.stream) (h : CookieStep t u) : CookieStep s u := by
  cases h with
  | free h => exact .free (hst.trans h)
  | field c value hc hfirst hlast =>
    exact .field c value (hstream.symm.trans hc) (hst.trans hfirst) hlast
  | create hfirst hlast => exact .create (hst.trans hfirst) hlast

theorem cookieStep_deliverHeader (s : KHttp2) (hserver : s.clientModel = false) :
    CookieStep s s.deliverHeader := by
  unfold deliverHeader
  split
  · rename_i c name value hstream hname hvalue
    extract_lets s1
    split
    · exact .free (.refl s)
    · split
      · exact .field c value hstream (.refl s) (.refl _)
      · rename_i hcookie
        have hother : name ≠ kglString "cookie" := by simpa [hserver] using hcookie
        have h1 : CookieFree s s1 := by
          apply s.cookieFree_log
          intro c'
          simp [Ev.isCookie, hother]
        have hclient : ¬s1.clientModel = true := by simp [h1.clientModel, hserver]
        rw [if_neg hclient]
        exact .free (h1.trans (s1.cookieFree_sinkParseHeader c name value))
  · exact .free (.refl s)

theorem stream_insertHeader (s : KHttp2) : s.insertHeader.state.stream = s.state.stream := by
  unfold insertHeader
  split <;> rfl

theorem cookieStep_stateProcessHeader (s : KHttp2) (hserver : s.clientModel = false) (p : Bytes) :
    CookieStep s (s.stateProcessHeader p).1 := by
  unfold stateProcessHeader
  extract_lets s1 s2 len s3
  have h1 : CookieFree s s1 := s.cookieFree_setState _
  have h2 : CookieFree s s2 ∧ s2.state.stream = s.state.stream := by
    dsimp only [s2]
    split
    · exact ⟨s.cookieFree_setState _, rfl⟩
    · exact ⟨.refl s, rfl⟩
  have h3 : CookieFree s2 s3 := s2.cookieFree_setState _
  have hstream : s3.state.stream = s.state.stream := h2.2
  split
  · split
    · exact .free (h1.trans (s1.cookieFree_fail _))
    · exact .free h1
  · split
    · exact .free ((h2.1.trans h3).trans (s3.cookieFree_fail _))
    · have h4 : CookieFree s s3.insertHeader := (h2.1.trans h3).trans s3.cookieFree_insertHeader
      refine .after h4 (s3.stream_insertHeader.trans hstream) (cookieStep_deliverHeader _ ?_)
      rw [h4.clientModel, hserver]

theorem cookieStep_headersNewStream (s : KHttp2) (p : Bytes) :
    CookieStep s (s.headersNewStream p).1 := by
  unfold headersNewStream
  extract_lets r c fin s1 s2
  have h1 : CookieFree r.1 s1 := (r.1.cookieFree_modify c rfl rfl).trans (cookieFree_logEnd _ c fin)
  have h2 : CookieFree s1 s2 := s1.cookieFree_newNode _ c
  exact .create (.refl s) ((h1.trans h2).trans (.of_fields rfl rfl rfl rfl))

theorem cookieStep_headersStream (s : KHttp2) (depend : ℕ) (p : Bytes) :
    CookieStep s (s.headersStream depend p).1 := by
  unfold headersStream
  extract_lets sid s1
  have h1 : CookieFree s s1 := .of_fields rfl rfl rfl rfl
  split
  · split
    · exact .free (.refl s)
    · exact .free (s.cookieFree_headersForStream _ p)
  · split
    · exact .free (s.cookieFree_fail _)
    · split
      · exact .free (s.cookieFree_sendRstStream _ _ _)
      · split
        · exact .free (h1.trans (s1.cookieFree_sendRstStream _ _ _))
        · split
          · exact .free (h1.trans (s1.cookieFree_headersForStream _ p))
          · exact .after h1 rfl (s1.cookieStep_headersNewStream p)

theorem cookieStep_stateHeaders (s : KHttp2) (p : Bytes) : CookieStep s (s.stateHeaders p).1 := by
  unfold stateHeaders
  extract_lets s1 padded priority size s2 s3 s4 depend
  have h1 : CookieFree s s1 := s.cookieFree_setState _
  have h2 : CookieFree s1 s2 := s1.cookieFree_setState _
  have h3 : CookieFree s s3 ∧ s3.state.stream = s.state.stream := by
    dsimp only [s3]
    split
    · exact ⟨(h1.trans h2).trans (s2.cookieFree_setState _), rfl⟩
    · exact ⟨h1.trans h2, rfl⟩
  have h4 : CookieFree s3 s4 ∧ s4.state.stream = s3.state.stream := by
    dsimp only [s4]
    split
    · exact ⟨s3.cookieFree_setState _, rfl⟩
    · exact ⟨.refl s3, rfl⟩
  split
  · exact .free (h1.trans (s1.cookieFree_fail _))
  · split
    · exact .free (h1.trans (s1.cookieFree_fail _))
    · split
      · exact .free (h1.trans (s1.cookieFree_stateSave _ _))
      · split
        · exact .free (h3.1.trans (s3.cookieFree_fail _))
        · exact .after (h3.1.trans h4.1) (h4.2.trans h3.2) (s4.cookieStep_headersStream _ _)

/-- The call ends a header block of a stream that is available. -/
def EndsBlock (c : CtxId) (call : Handler × KHttp2 × Bytes) : Prop :=
  call.1 = .stateHeaderComplete ∧ call.2.1.state.length = 0 ∧
    hasFlag call.2.1.state.flags endHeadersFlag = true ∧ call.2.1.state.stream = some c ∧
    (call.2.1.ctx c).isAvailable = true

/-- The end of a header block is handed to `on_header_success`. -/
theorem endsBlock_stateHeaderComplete {s : KHttp2} (hserver : s.clientModel = false) {c : CtxId}
    {p : Bytes} (h : EndsBlock c (.stateHeaderComplete, s, p)) :
    CookieFree (s.headerSuccess c) (s.stateHeaderComplete p).1 := by
  obtain ⟨-, hlength, hflag, hstream, havailable⟩ := h
  simp only at hlength hflag hstream havailable
  have hsuccess : s.onHeaderSuccess c = s.headerSuccess c := by
    simp [onHeaderSuccess, hserver, havailable]
  unfold stateHeaderComplete
  rw [if_neg (not_not_intro hlength), hflag, hstream]
  simp only [Bool.not_true, Bool.false_eq_true, if_false, hsuccess]
  exact (cookieFree_setState _ _).trans (cookieFree_endFrame _ p)

/-- Where no block of an available stream ends, `state_header_complete` has nothing to do with
cookies. -/
theorem cookieFree_stateHeaderComplete {s : KHttp2} (hserver : s.clientModel = false) {p : Bytes}
    (h : ∀ c, ¬EndsBlock c (.stateHeaderComplete, s, p)) :
    CookieFree s (s.stateHeaderComplete p).1 := by
  unfold stateHeaderComplete
  split
  · exact .refl s
  · rename_i hlength
    split
    · exact s.cookieFree_handleContinuation p _
    · rename_i hflag
      extract_lets s1
      have h1 : s1 = s := by
        dsimp only [s1]
        split
        · rfl
        · rename_i c hstream
          have havailable : (s.ctx c).isAvailable = false := by
            refine Bool.eq_false_iff.mpr fun havailable => h c ⟨rfl, ?_, ?_, hstream, havailable⟩
            · simpa using hlength
            · simpa using hflag
          simp [onHeaderSuccess, hserver, havailable]
      rw [h1]
      exact (s.cookieFree_setState _).trans (cookieFree_endFrame _ p)

/-- A call that ends no block of an available stream. -/
theorem cookieStep_exec (codes : HuffDecodeCodes) (h : Handler) {s : KHttp2}
    (hserver : s.clientModel = false) (p : Bytes) (hno : ∀ c, ¬EndsBlock c (h, s, p)) :
    CookieStep s (exec codes h s p).1 := by
  cases h with
  | statePreface => exact .free (s.cookieFree_statePreface p)
  | statePrefaceEnd => exact .free (s.cookieFree_statePrefaceEnd p)
  | stateHead => exact .free (s.cookieFree_stateHead p)
  | stateData => exact .free (s.cookieFree_stateData p)
  | stateReadData => exact .free (s.cookieFree_stateReadData p)
  | stateHeaders => exact s.cookieStep_stateHeaders p
  | stateHeaderBlock => exact .free (s.cookieFree_stateHeaderBlock p)
  | stateProcessHeader => exact s.cookieStep_stateProcessHeader hserver p
  | stateHeaderComplete => exact .free (cookieFree_stateHeaderComplete hserver hno)
  | stateFieldLen => exact .free (s.cookieFree_stateFieldLen p)
  | stateFieldHuff => exact .free (s.cookieFree_stateFieldHuff codes p)
  | stateFieldRaw => exact .free (s.cookieFree_stateFieldRaw p)
  | stateFieldSkip => exact .free (s.cookieFree_stateFieldSkip p)
  | statePriority => exact .free (s.cookieFree_statePriority p)
  | stateRstStream => exact .free (s.cookieFree_stateRstStream p)
  | stateSettings => exact .free (s.cookieFree_stateSettings p)
  | stateSettingsParams => exact .free (s.cookieFree_stateSettingsParams p)
  | statePushPromise => exact .free (.refl s)
  | statePing => exact .free (s.cookieFree_statePing p)
  | stateGoaway => exact .free (s.cookieFree_stateGoaway p)
  | stateWindowUpdate => exact .free (s.cookieFree_stateWindowUpdate p)
  | stateContinuation => exact .free (s.cookieFree_fail _)
  | stateAltsvc => exact .free (s.cookieFree_stateAltsvc p)
  | stateSkip => exact .free (s.cookieFree_stateSkip p)
  | stateComplete => exact .free s.cookieFree_releaseStateStream

/-- What the end of a header block does about cookies. -/
structure BlockEnded (c : CtxId) (s t : KHttp2) : Prop where
  cookies : ∀ c', (t.ctx c').cookies = (s.ctx c').cookies
  parsedHeader : ∀ c', (t.ctx c').parsedHeader = if c' = c then true else (s.ctx c').parsedHeader
  nextCtx : t.nextCtx = s.nextCtx
  clientModel : t.clientModel = s.clientModel
  log : cookieLog c t.trace = cookieLog c s.trace ++
    (((s.ctx c).cookies.toList.map fun vals => .cookieHeader c ([59, 32].intercalate vals)) ++
      [.headerSuccess c])
  other : ∀ c', c' ≠ c → cookieLog c' t.trace = cookieLog c' s.trace

theorem BlockEnded.before {c : CtxId} {s t u : KHttp2} (h : BlockEnded c s t)
    (htu : CookieFree t u) : BlockEnded c s u where
  cookies c' := (htu.cookies c').trans (h.cookies c')
  parsedHeader c' := (htu.parsedHeader c').trans (h.parsedHeader c')
  nextCtx := htu.nextCtx.trans h.nextCtx
  clientModel := htu.clientModel.trans h.clientModel
  log := (htu.log c).trans h.log
  other c' hc := (htu.log c').trans (h.other c' hc)

/-- The cookies that are kept are handed over as one header. -/
theorem constructCookieHeader_spec (s : KHttp2) (c : CtxId) :
    ∃ t, CookieFree t (s.constructCookieHeader c) ∧ t.ctx = s.ctx ∧ t.nextCtx = s.nextCtx ∧
      t.clientModel = s.clientModel ∧ cookieLog c t.trace = cookieLog c s.trace ++
        ((s.ctx c).cookies.toList.map fun vals => .cookieHeader c ([59, 32].intercalate vals)) ∧
      ∀ c', c' ≠ c → cookieLog c' t.trace = cookieLog c' s.trace := by
  unfold constructCookieHeader
  split
  · rename_i hnone
    exact ⟨s, .refl s, rfl, rfl, rfl, by simp [hnone], fun _ _ => rfl⟩
  · rename_i vals hsome
    refine ⟨s.log (.cookieHeader c ([59, 32].intercalate vals)),
      cookieFree_sinkParseHeader _ c _ _, rfl, rfl, rfl, ?_, fun c' hc => ?_⟩
    · have hcookie : (Ev.cookieHeader c ([59, 32].intercalate vals)).isCookie c = true := by
        simp [Ev.isCookie]
      rw [hsome]
      exact cookieLog_cons_cookie hcookie s.trace
    · refine cookieLog_cons ?_ s.trace
      simpa [Ev.isCookie] using Ne.symm hc

theorem blockEnded_headerSuccess (s : KHttp2) (c : CtxId) (hserver : s.clientModel = false) :
    BlockEnded c s (s.headerSuccess c) := by
  obtain ⟨t, hfree, hctx, hnext, hclient, hlog, hother⟩ := s.constructCookieHeader_spec c
  unfold headerSuccess
  extract_lets s1 s2 e s3
  have h1 : s1 = s.constructCookieHeader c := by
    dsimp only [s1]
    rw [if_neg]
    simp [hserver]
  have hclient2 : s2.clientModel = false := by
    have := hfree.clientModel
    simp only [s2, setState, log, h1, this, hclient, hserver]
  have hctx2 : s2.ctx = (s.constructCookieHeader c).ctx := by
    simp only [s2, setState, log, h1]
  have hcookie : (Ev.headerSuccess c).isCookie c = true := by simp [Ev.isCookie]
  have hlog2 : cookieLog c s2.trace = cookieLog c s.trace ++
      (((s.ctx c).cookies.toList.map fun vals => .cookieHeader c ([59, 32].intercalate vals)) ++
        [.headerSuccess c]) := by
    have hcons : cookieLog c s2.trace =
        cookieLog c (s.constructCookieHeader c).trace ++ [.headerSuccess c] := by
      simp only [s2, setState, log, h1]
      exact cookieLog_cons_cookie hcookie _
    rw [hcons, hfree.log c, hlog, List.append_assoc]
  have hother2 : ∀ c', c' ≠ c → cookieLog c' s2.trace = cookieLog c' s.trace := by
    intro c' hc
    have hcons : cookieLog c' s2.trace = cookieLog c' (s.constructCookieHeader c).trace := by
      simp only [s2, setState, log, h1]
      refine cookieLog_cons ?_ _
      simpa [Ev.isCookie] using Ne.symm hc
    rw [hcons, hfree.log c', hother c' hc]
  have hnext2 : s2.nextCtx = s.nextCtx := by
    simp only [s2, setState, log, h1, hfree.nextCtx, hnext]
  have hcookies2 : ∀ c', (s2.ctx c').cookies = (s.ctx c').cookies := by
    intro c'
    rw [hctx2, hfree.cookies c', hctx]
  have hparsed2 : ∀ c', (s2.ctx c').parsedHeader = (s.ctx c').parsedHeader := by
    intro c'
    rw [hctx2, hfree.parsedHeader c', hctx]
  simp only [hclient2, Bool.false_or]
  split
  · rename_i hparsed
    have h2 : BlockEnded c s s2 := by
      refine ⟨hcookies2, fun c' => ?_, hnext2, hclient2.trans hserver.symm, hlog2, hother2⟩
      split
      · rename_i hc
        rw [hc, hparsed]
      · exact hparsed2 c'
    exact h2.before ((s2.cookieFree_modify c rfl rfl).trans (cookieFree_onRead _ c _ _))
  · have h3 : BlockEnded c s s3 := by
      refine ⟨fun c' => ?_, fun c' => ?_, hnext2, hclient2.trans hserver.symm, hlog2, hother2⟩
      · by_cases hc : c' = c
        · subst hc
          simpa only [s3, modify, Function.update_self] using hcookies2 c'
        · simpa only [s3, modify, Function.update_of_ne hc] using hcookies2 c'
      · by_cases hc : c' = c
        · subst hc
          simp only [s3, modify, Function.update_self, if_true]
        · simp only [s3, modify, Function.update_of_ne hc, if_neg hc]
          exact hparsed2 c'
    exact h3.before ((s3.cookieFree_log (e := .startFiber c _) fun _ => rfl).trans
      (.of_fields rfl rfl rfl rfl))

/-! ## The cookies of a stream -/

/-- What a server keeps for a stream is what the log tells. -/
structure CookiesKept (c : CtxId) (s : KHttp2) : Prop where
  server : s.clientModel = false
  log : CookieLog c (cookieLog c s.trace)
  kept : (s.ctx c).cookies =
    if cookieFields (cookieLog c s.trace) =
      [] then none else some (cookieFields (cookieLog c s.trace))
  parsed : (s.ctx c).parsedHeader = true ↔ .headerSuccess c ∈ cookieLog c s.trace
  fresh : s.nextCtx ≤ c → cookieLog c s.trace = []

namespace CookiesKept

variable {c : CtxId} {s t : KHttp2}

theorem free (h : CookiesKept c s) (hst : CookieFree s t) : CookiesKept c t := by
  refine ⟨hst.clientModel.trans h.server, ?_, ?_, ?_, ?_⟩
  · rw [hst.log]
    exact h.log
  · rw [hst.log, hst.cookies]
    exact h.kept
  · rw [hst.log, hst.parsedHeader]
    exact h.parsed
  · rw [hst.log, hst.nextCtx]
    exact h.fresh

/-- The stream of the parser was made. -/
theorem known (h : CookiesKept c s) (hsound : Sound s) (hstream : s.state.stream = some c) :
    c < s.nextCtx := by
  refine Nat.lt_of_not_le fun hle => ?_
  by_cases hparsed : (s.ctx c).parsedHeader = true
  · have hmem := h.parsed.mp hparsed
    rw [h.fresh hle] at hmem
    exact absurd hmem List.not_mem_nil
  · have hnode : (s.ctx c).node.isSome :=
      (hsound.served h.server).parsing c hstream (Bool.eq_false_iff.mpr hparsed)
    exact Option.isSome_iff_ne_none.mp hnode (hsound.good.fresh c hle)

theorem field (h : CookiesKept c s) {c' : CtxId} (value : Bytes) (hknown : c' = c → c < s.nextCtx) :
    CookiesKept c (s.addCookie c' value) ∧
      (CookiesAgain c (cookieLog c (s.addCookie c' value).trace) ↔
        CookiesAgain c (cookieLog c s.trace)) := by
  by_cases hc : c' = c
  · subst hc
    have hcookie : (Ev.addCookie c' value).isCookie c' = true := by simp [Ev.isCookie]
    have hlog : cookieLog c' (s.addCookie c' value).trace =
        cookieLog c' s.trace ++ [.addCookie c' value] := cookieLog_cons_cookie hcookie _
    have hfields : cookieFields (cookieLog c' s.trace ++ [.addCookie c' value]) =
        cookieFields (cookieLog c' s.trace) ++ [value] := cookieFields_append _ _
    refine ⟨⟨h.server, ?_, ?_, ?_, fun hle => ?_⟩, ?_⟩
    · rw [hlog]
      exact h.log.field value
    · rw [hlog, hfields, if_neg (by simp)]
      simp only [addCookie, KHttp2.log, modify, Function.update_self, h.kept]
      split
      · rename_i hnil
        simp [hnil]
      · rfl
    · rw [hlog]
      simpa [addCookie, KHttp2.log, modify] using h.parsed
    · exact absurd (hknown rfl) (Nat.not_lt.mpr hle)
    · rw [hlog]
      exact cookiesAgain_field c' _ value
  · have hfree : CookieFree s ((s.modify c' fun ctx => ctx)) := s.cookieFree_modify c' rfl rfl
    have hcookie : (Ev.addCookie c' value).isCookie c = false := by simpa [Ev.isCookie] using hc
    have hlog : cookieLog c (s.addCookie c' value).trace = cookieLog c s.trace :=
      cookieLog_cons hcookie _
    have hctx : (s.addCookie c' value).ctx c = s.ctx c := by
      simp only [addCookie, KHttp2.log, modify, Function.update_of_ne (Ne.symm hc)]
    refine ⟨⟨h.server, ?_, ?_, ?_, ?_⟩, ?_⟩
    · rw [hlog]
      exact h.log
    · rw [hlog, hctx]
      exact h.kept
    · rw [hlog, hctx]
      exact h.parsed
    · rw [hlog]
      exact h.fresh
    · rw [hlog]

theorem create (h : CookiesKept c s) : CookiesKept c s.createStream.1 ∧
    cookieLog c s.createStream.1.trace = cookieLog c s.trace := by
  have hserver : ¬s.clientModel = true := by simp [h.server]
  unfold createStream
  dsimp only
  rw [if_neg hserver]
  refine ⟨⟨h.server, h.log, ?_, ?_, fun hle => h.fresh (Nat.le_of_succ_le hle)⟩, rfl⟩
  · by_cases hc : c = s.nextCtx
    · have hnil := h.fresh hc.ge
      simp only [setState, hc, Function.update_self]
      rw [← hc, hnil]
      rfl
    · simp only [setState, Function.update_of_ne hc]
      exact h.kept
  · by_cases hc : c = s.nextCtx
    · have hnil := h.fresh hc.ge
      simp only [setState, hc, Function.update_self]
      rw [← hc, hnil]
      simp [KHttp2Context.init]
    · simp only [setState, Function.update_of_ne hc]
      exact h.parsed

theorem blockEnded (h : CookiesKept c s) {c' : CtxId} (hend : BlockEnded c' s t)
    (hknown : c' = c → c < s.nextCtx) :
    CookiesKept c t ∧ (CookiesAgain c (cookieLog c t.trace) ↔ CookiesAgain c (cookieLog c s.trace) ∨
      c' = c ∧ (s.ctx c).parsedHeader = true ∧
        cookieFields (requestPart c (cookieLog c s.trace)) ≠ []) := by
  by_cases hc : c' = c
  · subst hc
    have hlog : cookieLog c' t.trace = cookieLog c' s.trace ++
      blockEnd c' (cookieLog c' s.trace) := by
      rw [hend.log, h.kept]
      unfold blockEnd joinedHeader
      split <;> simp
    have hfields : cookieFields (cookieLog c' t.trace) = cookieFields (cookieLog c' s.trace) := by
      rw [hlog, cookieFields_append, cookieFields_blockEnd, List.append_nil]
    refine ⟨⟨hend.clientModel.trans h.server, ?_, ?_, ?_, fun hle => ?_⟩, ?_⟩
    · rw [hlog]
      exact h.log.done
    · rw [hfields, hend.cookies]
      exact h.kept
    · rw [hend.parsedHeader, if_pos rfl, hlog]
      simp only [true_iff]
      exact List.mem_append_right _ (mem_blockEnd c' _)
    · rw [hend.nextCtx] at hle
      exact absurd (hknown rfl) (Nat.not_lt.mpr hle)
    · rw [hlog, cookiesAgain_done, h.parsed]
      simp only [true_and]
  · have hlog := hend.other c (Ne.symm hc)
    refine ⟨⟨hend.clientModel.trans h.server, ?_, ?_, ?_, ?_⟩, ?_⟩
    · rw [hlog]
      exact h.log
    · rw [hlog, hend.cookies]
      exact h.kept
    · rw [hlog, hend.parsedHeader, if_neg (Ne.symm hc)]
      exact h.parsed
    · rw [hlog, hend.nextCtx]
      exact h.fresh
    · rw [hlog]
      simp only [hc, false_and, or_false]

end CookiesKept

/-! ## Runs -/

/-- The call ends a block of trailers for a request that came with cookies. -/
def EndsTrailers (c : CtxId) (call : Handler × KHttp2 × Bytes) : Prop :=
  EndsBlock c call ∧ (call.2.1.ctx c).parsedHeader = true ∧
    cookieFields (requestPart c (cookieLog c call.2.1.trace)) ≠ []

instance EndsTrailers.decidable (c : CtxId) (call : Handler × KHttp2 × Bytes) :
    Decidable (EndsTrailers c call) :=
  inferInstanceAs (Decidable ((call.1 = .stateHeaderComplete ∧ call.2.1.state.length = 0 ∧
    hasFlag call.2.1.state.flags endHeadersFlag = true ∧ call.2.1.state.stream = some c ∧
    (call.2.1.ctx c).isAvailable = true) ∧ (call.2.1.ctx c).parsedHeader = true ∧
    cookieFields (requestPart c (cookieLog c call.2.1.trace)) ≠ []))

/-- What one call of a handler does about the cookies of a stream. -/
theorem cookies_exec (codes : HuffDecodeCodes) {c : CtxId} {h : Handler} {s : KHttp2} {p : Bytes}
    (hsound : Sound s) (hs : CookiesKept c s) :
    CookiesKept c (exec codes h s p).1 ∧
      (CookiesAgain c (cookieLog c (exec codes h s p).1.trace) ↔
        CookiesAgain c (cookieLog c s.trace) ∨ EndsTrailers c (h, s, p)) := by
  by_cases hend : ∃ c', EndsBlock c' (h, s, p)
  · obtain ⟨c', hend⟩ := hend
    obtain rfl : h = .stateHeaderComplete := hend.1
    have hstream : s.state.stream = some c' := hend.2.2.2.1
    have hknown : c' = c → c < s.nextCtx := fun hc => hs.known hsound (hc ▸ hstream)
    have hafter := (s.blockEnded_headerSuccess c' hs.server).before
      (endsBlock_stateHeaderComplete hs.server hend)
    obtain ⟨hkept, hagain⟩ := hs.blockEnded hafter hknown
    refine ⟨hkept, hagain.trans (or_congr_right ?_)⟩
    constructor
    · rintro ⟨rfl, hparsed, hfields⟩
      exact ⟨hend, hparsed, hfields⟩
    · rintro ⟨hend', hparsed, hfields⟩
      have hsame : some c' = some c := hstream.symm.trans hend'.2.2.2.1
      exact ⟨Option.some.inj hsame, hparsed, hfields⟩
  · have hno : ∀ c', ¬EndsBlock c' (h, s, p) := fun c' hc => hend ⟨c', hc⟩
    have hnot : ¬EndsTrailers c (h, s, p) := fun hc => hno c hc.1
    simp only [hnot, or_false]
    cases cookieStep_exec codes h hs.server p hno with
    | free hfree =>
      refine ⟨hs.free hfree, ?_⟩
      rw [hfree.log]
    | field c' value hstream hfirst hlast =>
      have hknown := hs.known hsound
      have hfield := (hs.free hfirst).field value fun hc =>
        hfirst.nextCtx ▸ hknown (hc ▸ hstream)
      refine ⟨hfield.1.free hlast, ?_⟩
      rw [hlast.log, hfield.2, hfirst.log]
    | create hfirst hlast =>
      have hcreate := (hs.free hfirst).create
      refine ⟨hcreate.1.free hlast, ?_⟩
      rw [hlast.log, hcreate.2, hfirst.log]

/-- What one step does about the cookies of a stream. -/
theorem cookies_step (codes : HuffDecodeCodes) {c : CtxId} {s : KHttp2} (hsound : Sound s)
    (hs : CookiesKept c s) (e : Event) :
    CookiesKept c (step codes s e) ∧
      (CookiesAgain c (cookieLog c (step codes s e).trace) ↔
        CookiesAgain c (cookieLog c s.trace) ∨
          ∃ call ∈ stepCalls codes s e, EndsTrailers c call) := by
  have hkeep : ∀ t, CookieFree s t → stepCalls codes s e = [] → CookiesKept c t ∧
      (CookiesAgain c (cookieLog c t.trace) ↔
        CookiesAgain c (cookieLog c s.trace) ∨
          ∃ call ∈ stepCalls codes s e, EndsTrailers c call) := by
    intro t hfree hcalls
    refine ⟨hs.free hfree, ?_⟩
    rw [hfree.log, hcalls]
    simp
  unfold step
  split
  · rename_i henabled
    by_cases hread : ∃ chunk, e = .read chunk
    · obtain ⟨chunk, rfl⟩ := hread
      let start := ({ s with pinged := false } : KHttp2).setState fun st => { st with buffer := [] }
      have hfree : CookieFree s start := .of_fields rfl rfl rfl rfl
      have hsound' : Sound start := hsound.quiet (.of_view rfl rfl rfl id)
      have hloop := @Resumable.run_records _ _ _ (exec codes)
        (fun t => Sound t ∧ CookiesKept c t) (fun t => CookiesAgain c (cookieLog c t.trace))
        (fun h t p => EndsTrailers c (h, t, p))
        (fun h t p ⟨ht, hkept⟩ =>
          ⟨⟨sound_exec codes ht h p, (cookies_exec codes ht hkept).1⟩,
            (cookies_exec codes ht hkept).2⟩)
        (measure s.state.handler (s.state.buffer ++ chunk) + 1) s.state.handler start
        (s.state.buffer ++ chunk) ⟨hsound', hs.free hfree⟩
      obtain ⟨⟨-, hkept⟩, hagain⟩ := hloop
      have hlast : CookieFree (Resumable.run (exec codes)
          (measure s.state.handler (s.state.buffer ++ chunk) + 1) s.state.handler start
          (s.state.buffer ++ chunk)).1 (onReadResult codes s chunk) := by
        cases hres : Resumable.run (exec codes)
          (measure s.state.handler (s.state.buffer ++ chunk) + 1) s.state.handler start
          (s.state.buffer ++ chunk) with
        | mk t out =>
          cases out with
          | none =>
            have hout : onReadResult codes s chunk = t := by
              unfold onReadResult
              rw [receive_none (s := { s with pinged := false }) hres]
            rw [hout]
            exact .refl t
          | some next =>
            obtain ⟨h', kept⟩ := next
            have hout : onReadResult codes s chunk =
                (t.setState fun st => { st with handler := h', buffer := kept }).startRead := by
              unfold onReadResult
              rw [receive_some (s := { s with pinged := false }) hres]
            rw [hout]
            exact (t.cookieFree_setState _).trans (cookieFree_startRead _)
      refine ⟨hkept.free hlast, ?_⟩
      show CookiesAgain c (cookieLog c (onReadResult codes s chunk).trace) ↔ _
      rw [hlast.log, hagain, hfree.log, stepCalls, if_pos henabled]
    · refine hkeep _ (cookieFree_act codes s e henabled hs.server fun chunk he =>
        hread ⟨chunk, he⟩) ?_
      cases e with
      | read chunk => exact absurd ⟨chunk, rfl⟩ hread
      | _ => rfl
  · rename_i henabled
    refine hkeep s (.refl s) ?_
    cases e with
    | read chunk => exact if_neg henabled
    | _ => rfl

/-- In such a run no block of trailers ends for a request of the stream that came with cookies. -/
def NoTrailersAfterCookies (codes : HuffDecodeCodes) (c : CtxId) (s : KHttp2) (es : List Event) :
    Prop :=
  Along codes (fun s e => ∀ call ∈ stepCalls codes s e, ¬EndsTrailers c call) s es

instance NoTrailersAfterCookies.decidable (codes : HuffDecodeCodes) (c : CtxId) (s : KHttp2)
    (es : List Event) : Decidable (NoTrailersAfterCookies codes c s es) :=
  inferInstanceAs (Decidable (Along codes
    (fun s e => ∀ call ∈ stepCalls codes s e, ¬EndsTrailers c call) s es))

/-- What a run does about the cookies of a stream. -/
theorem cookies_run (codes : HuffDecodeCodes) {c : CtxId} (es : List Event) {s : KHttp2}
    (hsound : Sound s) (hhalted : Halted s) (hs : CookiesKept c s) :
    CookiesKept c (run codes s es) ∧
      (CookiesAgain c (cookieLog c (run codes s es).trace) ↔
        CookiesAgain c (cookieLog c s.trace) ∨ ¬NoTrailersAfterCookies codes c s es) := by
  induction es generalizing s with
  | nil =>
    have htrivial : NoTrailersAfterCookies codes c s [] := trivial
    exact ⟨hs, by simp [run, htrivial]⟩
  | cons e es ih =>
    have hpath : Path (fun _ => True) s (step codes s e) :=
      path_step codes hsound hhalted e fun _ _ => trivial
    obtain ⟨hkept, hstep⟩ := cookies_step codes hsound hs e
    obtain ⟨hlast, hrest⟩ := ih (hsound.path hpath) (hhalted.path hsound hpath) hkept
    refine ⟨hlast, ?_⟩
    have hfirst : (∃ call ∈ stepCalls codes s e, EndsTrailers c call) ↔
        ¬∀ call ∈ stepCalls codes s e, ¬EndsTrailers c call := by
      push Not
      rfl
    calc CookiesAgain c (cookieLog c (run codes s (e :: es)).trace)
        ↔ CookiesAgain c (cookieLog c (step codes s e).trace) ∨
            ¬NoTrailersAfterCookies codes c (step codes s e) es := hrest
      _ ↔ CookiesAgain c (cookieLog c s.trace) ∨
            ((¬∀ call ∈ stepCalls codes s e, ¬EndsTrailers c call) ∨
              ¬NoTrailersAfterCookies codes c (step codes s e) es) := by
          rw [hstep, hfirst, or_assoc]
      _ ↔ CookiesAgain c (cookieLog c s.trace) ∨ ¬NoTrailersAfterCookies codes c s (e :: es) := by
          rw [← not_and_or]
          rfl

/-- A blank connection keeps no cookies. -/
theorem Blank.cookiesKept {s : KHttp2} (h : Blank s) (hserver : s.clientModel = false) (c : CtxId) :
    CookiesKept c s ∧ cookieLog c s.trace = [] := by
  have hnil : cookieLog c s.trace = [] := by
    rw [h.trace]
    rfl
  refine ⟨⟨hserver, ?_, ?_, ?_, fun _ => hnil⟩, hnil⟩
  · rw [hnil]
    exact .nil
  · rw [hnil, h.ctx c]
    rfl
  · rw [hnil, h.ctx c]
    simp [KHttp2Context.init]

/-- A server that starts keeps no cookies. -/
theorem Starts.cookiesKept {s : KHttp2} (h : Starts s) (hserver : s.clientModel = false)
    (c : CtxId) : CookiesKept c s ∧ cookieLog c s.trace = [] := by
  have hstart : ∀ b : KHttp2, Blank b → b.clientModel = false →
      CookiesKept c b.greet.startRead ∧ cookieLog c b.greet.startRead.trace = [] := by
    intro b hb hclient
    have hfree : CookieFree b b.greet.startRead := b.cookieFree_greet.trans (cookieFree_startRead _)
    obtain ⟨hkept, hnil⟩ := hb.cookiesKept hclient c
    exact ⟨hkept.free hfree, (hfree.log c).trans hnil⟩
  cases h with
  | server now timeOut junk =>
    exact hstart _ ⟨fun _ => rfl, fun _ => rfl, rfl, rfl, rfl, rfl, rfl, rfl, rfl, rfl⟩ rfl
  | serverH2c now timeOut junk =>
    exact hstart _ ⟨fun _ => rfl, fun _ => rfl, rfl, rfl, rfl, rfl, rfl, rfl, rfl, rfl⟩ rfl
  | client now timeOut junk =>
    have hclient : (KHttp2.client now timeOut junk).clientModel = true := by
      unfold KHttp2.client newClientStream createStream
      dsimp only
      split <;> exact (quiet_greet _).clientModel
    exact absurd (hserver.symm.trans hclient) Bool.false_ne_true

/-- A request with the cookie `a`, in a literal field with an indexed name. -/
def cookieRequest : Bytes :=
  clientPreface ++ [0, 0, 5, 1, 4, 0, 0, 0, 1, 0x82, 0x0f, 0x11, 1, 97]

/-- The same request, and then trailers. -/
def trailersAfterCookie : List Event :=
  [.read cookieRequest, .read [0, 0, 1, 1, 5, 0, 0, 0, 1, 0x82]]

end KHttp2

end Khttpd
