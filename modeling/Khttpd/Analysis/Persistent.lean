import Khttpd.Analysis.Resting

/-!
# Invariants that survive the end of a connection

Some results hold of every reachable state, also of one in which the connection stopped reading or
was deleted. An invariant for them does not know the handler to come. It is proved once for each
handler, and for each event that brings no bytes.
-/

set_option autoImplicit false

namespace Khttpd

namespace KHttp2

/-- An invariant of all states, and what a call of a handler must meet to keep it. -/
structure Persistent (codes : HuffDecodeCodes) (P : Handler → KHttp2 → Bytes → Prop)
    (J : KHttp2 → Prop) : Prop where
  store : ∀ {s t}, Quiet s t → t.body = s.body → J s → J t
  exec : ∀ {h s p}, Sound s → p.length ≤ readBufferSize → P h s p → J s → J (exec codes h s p).1
  startRead : ∀ {s}, Sound s → J s → J s.startRead
  act : ∀ {s e}, Sound s → Path (fun _ => True) s (act codes s e) → s.enabled e = true →
    (∀ chunk, e ≠ .read chunk) → J s → J (act codes s e)

variable {codes : HuffDecodeCodes} {P : Handler → KHttp2 → Bytes → Prop} {J : KHttp2 → Prop}

/-- A read. -/
theorem Persistent.onReadResult (hJ : Persistent codes P J) {s : KHttp2} (hsound : Sound s)
    {chunk : Bytes} (hroom : s.state.buffer.length + chunk.length ≤ readBufferSize)
    (hcalls : ∀ call ∈ Resumable.calls (KHttp2.exec codes)
        (measure s.state.handler (s.state.buffer ++ chunk) + 1) s.state.handler
        ({ s with pinged := false }.setState fun st => { st with buffer := [] })
        (s.state.buffer ++ chunk), P call.1 call.2.1 call.2.2)
    (hs : J s) : J (KHttp2.onReadResult codes s chunk) := by
  let start := ({ s with pinged := false } : KHttp2).setState fun st => { st with buffer := [] }
  have hquiet : Quiet s start := .of_view rfl rfl rfl id
  have hloop := @Resumable.run_indexed _ _ _ (KHttp2.exec codes)
    (fun _ p t => p.length ≤ readBufferSize ∧ Sound t ∧ J t) P
    (fun h t p ⟨hp, ht, hjt⟩ hP =>
      ⟨(forward_follows codes h t p).rest.trans hp, sound_exec codes ht h p, hJ.exec ht hp hP hjt⟩)
    (measure s.state.handler (s.state.buffer ++ chunk) + 1) s.state.handler start
    (s.state.buffer ++ chunk)
    ⟨by simpa only [List.length_append] using hroom, hsound.quiet hquiet, hJ.store hquiet rfl hs⟩
    hcalls
  obtain ⟨-, ht, hjt⟩ := hloop
  cases hres : Resumable.run (KHttp2.exec codes)
    (measure s.state.handler (s.state.buffer ++ chunk) + 1) s.state.handler start
    (s.state.buffer ++ chunk) with
  | mk t out =>
    rw [hres] at ht hjt
    cases out with
    | none =>
      have hout : KHttp2.onReadResult codes s chunk = t := by
        unfold KHttp2.onReadResult
        rw [receive_none (s := { s with pinged := false }) hres]
      rw [hout]
      exact hjt
    | some next =>
      obtain ⟨h', kept⟩ := next
      let u := t.setState fun st => { st with handler := h', buffer := kept }
      have hout : KHttp2.onReadResult codes s chunk = u.startRead := by
        unfold KHttp2.onReadResult
        rw [receive_some (s := { s with pinged := false }) hres]
      have hu : Quiet t u := t.quiet_setState rfl
      rw [hout]
      exact hJ.startRead (ht.quiet hu) (hJ.store hu rfl hjt)

/-- A step. -/
theorem Persistent.step (hJ : Persistent codes P J) {s : KHttp2} (hsound : Sound s)
    (hhalted : Halted s) (e : Event)
    (hcalls : ∀ call ∈ stepCalls codes s e, P call.1 call.2.1 call.2.2) (hs : J s) :
    J (KHttp2.step codes s e) := by
  have hpath : Path (fun _ => True) s (KHttp2.step codes s e) :=
    path_step codes hsound hhalted e fun _ _ => trivial
  by_cases henabled : s.enabled e = true
  · have hstep : KHttp2.step codes s e = KHttp2.act codes s e := if_pos henabled
    rw [hstep] at hpath ⊢
    by_cases hread : ∃ chunk, e = .read chunk
    · obtain ⟨chunk, rfl⟩ := hread
      simp only [stepCalls, if_pos henabled] at hcalls
      simp only [enabled, Bool.and_eq_true, Bool.not_eq_true', decide_eq_true_eq] at henabled
      exact hJ.onReadResult hsound henabled.2.2 hcalls hs
    · exact hJ.act hsound hpath henabled (fun chunk he => hread ⟨chunk, he⟩) hs
  · have hstep : KHttp2.step codes s e = s := if_neg henabled
    rw [hstep]
    exact hs

/-- A run. -/
theorem Persistent.run (hJ : Persistent codes P J) (es : List Event) {s : KHttp2}
    (hsound : Sound s) (hhalted : Halted s)
    (hcalls : Along codes
      (fun s e => ∀ call ∈ stepCalls codes s e, P call.1 call.2.1 call.2.2) s es)
    (hs : J s) : J (KHttp2.run codes s es) := by
  induction es generalizing s with
  | nil => exact hs
  | cons e es ih =>
    have hpath : Path (fun _ => True) s (KHttp2.step codes s e) :=
      path_step codes hsound hhalted e fun _ _ => trivial
    exact ih (hsound.path hpath) (hhalted.path hsound hpath) hcalls.2
      (hJ.step hsound hhalted e hcalls.1 hs)

end KHttp2

end Khttpd
