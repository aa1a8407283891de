import Khttpd.Analysis.SocketPool
import Khttpd.Model.SockPoolHelper

/-!
# The configuration of an upstream

`no_sni` and `is_unix` are set by a call and cleared by none, so they tell of every call there was.
The pool is cleaned where the host, the port or the string of the TLS options is a new one; a call
that changes nothing but `h2` keeps the pooled connections, and so does one whose host is the stored
one and loses a `unix:`.
-/

set_option autoImplicit false

namespace Khttpd

namespace HelperConfig

variable {kstringFrom : Option Bytes → Option Bytes} {call : Option Bytes × Bytes}

/-! ## What a call asks for -/

/-- Whether the options behind the port ask for HTTP/2 without TLS. -/
def wantsH2 (call : Option Bytes × Bytes) : Bool := startsWith 104 (call.2.dropWhile isDigit)

/-- The string of the TLS options. -/
def sslOf (call : Option Bytes × Bytes) : Option Bytes :=
  let s := call.2.dropWhile isDigit
  if wantsH2 call then none
  else if startsWith 115 s || startsWith 83 s then some s else none

/-- Whether these TLS options have this letter before the protocols. -/
def hasLetter (ch : Byte) (ssl : Option Bytes) : Bool := ssl.any fun s => (sslBuf s).contains ch

/-- Whether a host is the path of a Unix socket. -/
def isPath (host : Option Bytes) : Bool := startsWith 47 (host.getD [])

/-- Whether a call sets `no_sni`. -/
def wantsNoSni (call : Option Bytes × Bytes) : Bool := hasLetter 110 (sslOf call)

/-- Whether a call sets `is_unix`. -/
def wantsUnix (call : Option Bytes × Bytes) : Bool := isUnixHost call.1 || isPath (stripUnix call.1)

theorem filter_ssl (call : Option Bytes × Bytes) :
    (if startsWith 104 (call.2.dropWhile isDigit) then none else some (call.2.dropWhile isDigit)).filter
        (fun s => startsWith 115 s || startsWith 83 s) = sslOf call := by
  unfold sslOf wantsH2
  cases startsWith 104 (call.2.dropWhile isDigit) with
  | true => rfl
  | false => rfl

/-- What a call sets without a look at what was there. -/
theorem setHostPortString_eq (c : HelperConfig) :
    (c.setHostPortString kstringFrom call).1 =
      ⟨stripUnix call.1, (atoi call.2 % 2 ^ 16).toNat, sslOf call, wantsH2 call,
        hasLetter 112 (sslOf call), wantsNoSni call || c.noSni, wantsUnix call || c.isUnix⟩ := by
  unfold setHostPortString setHostPort
  dsimp only [Option.any_some]
  rw [filter_ssl]
  have hor : ∀ a b : Bool, (if a = true then true else b) = (a || b) := by decide
  rw [hor, hor, hor, wantsUnix, Bool.or_left_comm, Bool.or_assoc]
  rfl

/-- What the test for a change looks at. -/
theorem setHostPortString_destChanged (hfrom : ∀ s, kstringFrom s = s) (c : HelperConfig) :
    (c.setHostPortString kstringFrom call).2 = false ↔
      c.host = call.1 ∧ (c.port : ℤ) = atoi call.2 ∧ c.ssl = sslOf call := by
  unfold setHostPortString setHostPort
  dsimp only [Option.any_some]
  rw [hfrom]
  rw [filter_ssl, decide_eq_false_iff_not, not_or, not_or, not_not, not_not, not_not]

/-! ## Histories -/

/-- The configuration after these calls on a new helper. -/
def after (kstringFrom : Option Bytes → Option Bytes) (port : UInt16)
    (calls : List (Option Bytes × Bytes)) : HelperConfig :=
  calls.foldl (fun c call => (c.setHostPortString kstringFrom call).1) (init port)

theorem after_append (port : UInt16) (calls : List (Option Bytes × Bytes))
    (call : Option Bytes × Bytes) :
    after kstringFrom port (calls ++ [call]) =
      ((after kstringFrom port calls).setHostPortString kstringFrom call).1 := by
  simp [after]

/-- The flags that are never cleared. -/
theorem after_flags (port : UInt16) (calls : List (Option Bytes × Bytes)) :
    (after kstringFrom port calls).noSni = calls.any wantsNoSni ∧
      (after kstringFrom port calls).isUnix = calls.any wantsUnix := by
  induction calls using List.reverseRecOn with
  | nil => exact ⟨rfl, rfl⟩
  | append_singleton calls call ih =>
    rw [after_append, setHostPortString_eq]
    simp only [List.any_append, List.any_cons, List.any_nil, Bool.or_false]
    rw [ih.1, ih.2, Bool.or_comm, Bool.or_comm (wantsUnix call)]
    exact ⟨rfl, rfl⟩

/-- What the fields of a configuration say of each other. -/
structure Settled (c : HelperConfig) : Prop where
  port : c.port < 2 ^ 16
  alpn : c.alpn = hasLetter 112 c.ssl
  noSni : hasLetter 110 c.ssl = true → c.noSni = true
  isUnix : isPath c.host = true → c.isUnix = true

theorem settled_after (port : UInt16) (calls : List (Option Bytes × Bytes)) :
    (after kstringFrom port calls).Settled := by
  cases calls using List.reverseRecOn with
  | nil =>
    have hnoSni : hasLetter 110 none ≠ true := by decide
    have hisUnix : isPath none ≠ true := by decide
    exact ⟨port.toNat_lt, rfl, fun h => absurd h hnoSni, fun h => absurd h hisUnix⟩
  | append_singleton calls call =>
    rw [after_append, setHostPortString_eq]
    refine ⟨?_, rfl, fun h => ?_, fun h => ?_⟩
    · show (atoi call.2 % 2 ^ 16).toNat < 2 ^ 16
      omega
    · exact Bool.or_eq_true_iff.mpr (.inl h)
    · have hwants : wantsUnix call = true := Bool.or_eq_true_iff.mpr (.inr h)
      exact Bool.or_eq_true_iff.mpr (.inl hwants)

/-- `unix:` in front of a host makes it another one. -/
theorem stripUnix_eq_self {host : Option Bytes} :
    stripUnix host = host ↔ isUnixHost host = false := by
  unfold stripUnix
  constructor
  · intro h
    by_contra hunix
    rw [Bool.not_eq_false] at hunix
    rw [if_pos hunix] at h
    cases host with
    | none => exact absurd hunix (by decide)
    | some host =>
      cases host with
      | nil => exact absurd hunix (by decide)
      | cons b host =>
        have hlength : (cstr ((b :: host).drop 5)).length = (b :: host).length :=
          congrArg List.length (Option.some.inj h)
        have hle : (cstr ((b :: host).drop 5)).length ≤ ((b :: host).drop 5).length :=
          (List.takeWhile_sublist _).length_le
        rw [hlength, List.length_drop, List.length_cons] at hle
        omega
  · intro h
    rw [if_neg (by rw [h]; decide)]

/-- A call that the test for a change does not see, although it changes something. -/
def Unseen (c : HelperConfig) (call : Option Bytes × Bytes) : Prop :=
  (c.host = call.1 ∧ (c.port : ℤ) = atoi call.2 ∧ c.ssl = sslOf call) ∧
    (c.h2 ≠ wantsH2 call ∨ isUnixHost call.1 = true)

/-- A call that the test does not see changes `h2`, or a host with `unix:`, or nothing. -/
theorem Settled.unseen_iff {c : HelperConfig} (hc : c.Settled) (hfrom : ∀ s, kstringFrom s = s) :
    Unseen c call ↔ (c.setHostPortString kstringFrom call).2 = false ∧
      (c.setHostPortString kstringFrom call).1 ≠ c := by
  rw [setHostPortString_destChanged hfrom, setHostPortString_eq]
  refine and_congr_right ?_
  rintro ⟨hhost, hport, hssl⟩
  have hsame : (atoi call.2 % 2 ^ 16).toNat = c.port := by
    have := hc.port
    omega
  constructor
  · rintro (hh2 | hunix) heq
    · exact hh2 (congrArg h2 heq).symm
    · have hstrip : stripUnix call.1 = call.1 := (congrArg host heq).trans hhost
      rw [stripUnix_eq_self.mp hstrip] at hunix
      cases hunix
  · intro hne
    by_contra hnone
    rw [not_or, not_not, Bool.not_eq_true] at hnone
    refine hne ?_
    have hstrip := stripUnix_eq_self.mpr hnone.2
    have hsni : (wantsNoSni call || c.noSni) = c.noSni := by
      cases hwants : wantsNoSni call with
      | false => rfl
      | true => exact (hc.noSni (by rw [hssl]; exact hwants)).symm
    have hisUnix : (wantsUnix call || c.isUnix) = c.isUnix := by
      cases hwants : wantsUnix call with
      | false => rfl
      | true =>
        have hpath : isPath call.1 = true := by
          rw [wantsUnix, hnone.2, hstrip] at hwants
          exact hwants
        exact (hc.isUnix (by rw [hhost]; exact hpath)).symm
    rw [hsni, hisUnix, hsame, hstrip, ← hhost, ← hssl, ← hc.alpn, ← hnone.1]

end HelperConfig

/-! ## The pool -/

variable {ι : Type}

/-- `clean` leaves nothing in the pool. -/
theorem getImp_clean (now : ℤ) (p : KPoolableSocketContainer ι) :
    (p.clean now).getImp.head = [] := by
  unfold KPoolableSocketContainer.clean
  cases himp : p.imp with
  | none =>
    unfold KPoolableSocketContainer.getImp
    rw [himp]
    rfl
  | some imp =>
    have hhead := @KPoolableSocketContainerImp.refresh_head ι now true imp
    show (imp.refresh now true).1.head = []
    rw [hhead]
    simp

namespace KSockPoolHelper

open HelperConfig

variable {kstringFrom : Option Bytes → Option Bytes}

/-- The pool is emptied where the test sees a change. -/
theorem pooled_setHostPort (now : ℤ) (helper : KSockPoolHelper ι) (call : Option Bytes × Bytes) :
    (helper.setHostPort kstringFrom now call).pooled =
      if (helper.config.setHostPortString kstringFrom call).2 then [] else helper.pooled := by
  unfold setHostPort pooled
  dsimp only
  split
  · exact getImp_clean now helper.container
  · rfl

/-- A call that changes the configuration drops every pooled connection exactly when the test for a
change sees the call. -/
theorem setHostPort_drops [Nonempty ι] (hfrom : ∀ s, kstringFrom s = s) {c : HelperConfig}
    (hc : c.Settled) (call : Option Bytes × Bytes) (now : ℤ) :
    (∀ helper : KSockPoolHelper ι, helper.config = c →
      (helper.setHostPort kstringFrom now call).config ≠ c →
        (helper.setHostPort kstringFrom now call).pooled = []) ↔ ¬Unseen c call := by
  rw [hc.unseen_iff hfrom]
  constructor
  · rintro h ⟨hseen, hchange⟩
    obtain ⟨us⟩ := ‹Nonempty ι›
    have hpooled := h ⟨c, ⟨0, some ⟨1, [⟨us, 0, false, false⟩]⟩⟩⟩ rfl hchange
    rw [pooled_setHostPort, hseen] at hpooled
    cases hpooled
  · rintro hunseen helper rfl hchange
    have hseen := mt (fun hfalse => ⟨hfalse, hchange⟩) hunseen
    rw [Bool.not_eq_false] at hseen
    rw [pooled_setHostPort, if_pos hseen]

/-- Two histories that end with the same call leave the same configuration exactly when the calls
of both, or of none, ask for `no_sni`, and the same of `is_unix`; and each of their calls that
changes the configuration drops the pooled connections exactly when the test sees it. -/
theorem setHostPort_history [Nonempty ι] (hfrom : ∀ s, kstringFrom s = s) (port port' : UInt16)
    (calls calls' : List (Option Bytes × Bytes)) (call : Option Bytes × Bytes) (now : ℤ) :
    (after kstringFrom port (calls ++ [call]) = after kstringFrom port' (calls' ++ [call]) ↔
      ((calls ++ [call]).any wantsNoSni = (calls' ++ [call]).any wantsNoSni ∧
        (calls ++ [call]).any wantsUnix = (calls' ++ [call]).any wantsUnix)) ∧
      ((∀ helper : KSockPoolHelper ι, helper.config = after kstringFrom port calls →
        (helper.setHostPort kstringFrom now call).config ≠ helper.config →
          (helper.setHostPort kstringFrom now call).pooled = []) ↔
        ¬Unseen (after kstringFrom port calls) call) := by
  refine ⟨?_, ?_⟩
  · have hflags := @after_flags kstringFrom port (calls ++ [call])
    have hflags' := @after_flags kstringFrom port' (calls' ++ [call])
    rw [← hflags.1, ← hflags.2, ← hflags'.1, ← hflags'.2]
    constructor
    · intro h
      rw [h]
      exact ⟨rfl, rfl⟩
    · rintro ⟨hsni, hunix⟩
      rw [after_append, after_append, setHostPortString_eq, setHostPortString_eq] at *
      dsimp only at hsni hunix
      rw [hsni, hunix]
  · have hsettled := @settled_after kstringFrom port calls
    have hdrops := @setHostPort_drops ι kstringFrom _ hfrom _ hsettled call now
    rw [← hdrops]
    constructor
    · intro h helper heq
      rw [← heq]
      exact h helper heq
    · intro h helper heq
      rw [heq]
      exact h helper heq

/-- A helper that is set from TLS without SNI to plain. -/
theorem setHostPort_history_two :
    after id 0 ([(some [97], kglString "443sn")] ++ [(some [97], kglString "80")]) ≠
      after id 0 ([] ++ [(some [97], kglString "80")]) := fun h =>
  absurd ((@setHostPort_history ℕ id _ (fun _ => rfl) 0 0 [(some [97], kglString "443sn")] []
    (some [97], kglString "80") 0).1.mp h).1 (by decide)

/-- A helper that is set to HTTP/2 keeps the connections that it made before. -/
theorem setHostPort_stale :
    ¬((∀ calls calls' : List (Option Bytes × Bytes), ∀ call,
        after id 0 (calls ++ [call]) = after id 0 (calls' ++ [call])) ∧
      ∀ (calls : List (Option Bytes × Bytes)) (call : Option Bytes × Bytes)
        (helper : KSockPoolHelper ℕ), helper.config = after id 0 calls →
          (helper.setHostPort id 0 call).config ≠ helper.config →
            (helper.setHostPort id 0 call).pooled = []) := by
  rintro ⟨-, h⟩
  have hpooled := h [(some [97], kglString "80")] (some [97], kglString "80h")
    ⟨_, ⟨0, some ⟨1, [⟨0, 0, false, false⟩]⟩⟩⟩ rfl (by decide)
  exact absurd hpooled (by decide)

end KSockPoolHelper

end Khttpd
