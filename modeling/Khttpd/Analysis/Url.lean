import Khttpd.Analysis.Range
import Khttpd.Model.Url

/-!
# URLs

The port of an authority, and what becomes of a URL that is parsed, printed and parsed again. A URL
of the web is one whose parts stand apart; its text parses to it, and every absolute URL that is
accepted is one.
-/

set_option autoImplicit false

namespace Khttpd

variable {strndup : Bytes → Bytes}

/-! ## Searching -/

/-- The first occurrence is the one before which the first byte of the needle does not stand. -/
theorem kglMemstr_append (needle : Bytes) {c : Byte} {front : Bytes} (hfront : c ∉ front)
    (back : Bytes) :
    kglMemstr (c :: needle) (front ++ (c :: needle ++ back)) = some (front, back) := by
  induction front with
  | nil =>
    have hprefix : (c :: needle).isPrefixOf (c :: (needle ++ back)) = true := by simp
    rw [List.nil_append, List.cons_append, kglMemstr, if_pos hprefix]
    simp
  | cons b front ih =>
    simp only [List.mem_cons, not_or] at hfront
    have hprefix : ¬(c :: needle).isPrefixOf (b :: (front ++ (c :: needle ++ back))) = true := by
      intro h
      simp only [List.isPrefixOf, Bool.and_eq_true, beq_iff_eq] at h
      exact hfront.1 h.1
    rw [List.cons_append, kglMemstr, if_neg hprefix, ih hfront.2]
    rfl

/-! ## The port of an authority -/

/-- An authority with a port: `host:digits`, or `[ipv6]:digits`. -/
inductive AuthorityText (digits : Bytes) : Bytes → Prop
  | plain {host : Bytes} (hcolon : (58 : Byte) ∉ host) (hbracket : host.head? ≠ some 91) :
      AuthorityText digits (host ++ 58 :: digits)
  | ipv6 {host : Bytes} (hbracket : (93 : Byte) ∉ host) :
      AuthorityText digits (91 :: (host ++ 93 :: 58 :: digits))

/-- An accepted authority has the port that is written, and one that is no port is refused. -/
def PortAsWritten (strndup : Bytes → Bytes) (url : KglUrl) (val digits : Bytes) : Prop :=
  ∃ r, parseUrlHost strndup url val = some r ∧
    (r.ok = true → r.url.port.toNat = decimalValue digits ∧ decimalValue digits ≤ 65535) ∧
      (65535 < decimalValue digits → r.ok = false)

/-- The test at the head of `parse_url_host`. -/
theorem parseUrlHost_plain (strndup : Bytes → Bytes) {val : Bytes}
    (hbracket : val.head? ≠ some 91) (url : KglUrl) :
    parseUrlHost strndup url val =
      match memchr 58 val with
      | none => some ⟨true, finishHost strndup url val none⟩
      | some (host, port) => (setPort url (some port)).map fun url =>
          ⟨true, finishHost strndup url host (some port)⟩ := by
  unfold parseUrlHost
  split
  · exact absurd rfl hbracket
  · cases memchr 58 val with
    | none => rfl
    | some r => cases h : setPort url (some r.2) <;> simp [h]

theorem parseUrlHost_ipv6 (strndup : Bytes → Bytes) {host : Bytes}
    (hbracket : (93 : Byte) ∉ host) (back : Bytes) (url : KglUrl) :
    parseUrlHost strndup url (91 :: (host ++ 93 :: back)) =
      let port := (memchr 58 back).map Prod.snd
      (setPort (url.setFlag kglUrlIpv6) port).map fun url =>
        ⟨true, finishHost strndup url host port⟩ := by
  have hport : (memchr 58 (93 :: back)).map Prod.snd = (memchr 58 back).map Prod.snd := by
    rw [memchr, if_neg (by decide), Option.map_map]
    rfl
  simp only [parseUrlHost, memchr_append hbracket, hport]
  cases setPort (url.setFlag kglUrlIpv6) ((memchr 58 back).map Prod.snd) <;> rfl

@[simp] theorem finishHost_port (url : KglUrl) (host port : Bytes) :
    (finishHost strndup url host (some port)).port = url.port := rfl

/-- Both forms of an authority with a port come to the same. -/
theorem parseUrlHost_text (strndup : Bytes → Bytes) {digits val : Bytes}
    (htext : AuthorityText digits val) (url : KglUrl) :
    ∃ host url', url'.port = url.port ∧
      parseUrlHost strndup url val = (setPort url' (some digits)).map fun url =>
        ⟨true, finishHost strndup url host (some digits)⟩ := by
  cases htext with
  | plain hcolon hbracket =>
    rename_i host
    refine ⟨host, url, rfl, ?_⟩
    have hhead : (host ++ 58 :: digits).head? ≠ some 91 := by
      cases host with
      | nil => simp
      | cons c host => simpa using hbracket
    rw [parseUrlHost_plain strndup hhead, memchr_append hcolon]
  | ipv6 hbracket =>
    rename_i host
    refine ⟨host, url.setFlag kglUrlIpv6, rfl, ?_⟩
    rw [parseUrlHost_ipv6 strndup hbracket, show memchr 58 (58 :: digits) =
      some ([], digits) from rfl]
    rfl

theorem kglAtoi_digits {digits : Bytes} (hdigits : Digits digits) : kglAtoi digits =
    if decimalValue digits < 2 ^ 31 then some (decimalValue digits) else none := by
  have hatol := kglAtol_digits [] hdigits.all (by simp)
  rw [List.append_nil] at hatol
  rw [kglAtoi, hatol]

/-- A port is parsed as it is written, or refused, exactly when it is one. -/
theorem portAsWritten_iff (strndup : Bytes → Bytes) (url : KglUrl) {val digits : Bytes}
    (htext : AuthorityText digits val) (hdigits : Digits digits) :
    PortAsWritten strndup url val digits ↔ decimalValue digits ≤ 65535 := by
  obtain ⟨host, url', -, hparse⟩ := parseUrlHost_text strndup htext url
  unfold PortAsWritten
  rw [hparse, setPort, kglAtoi_digits hdigits]
  by_cases hint : decimalValue digits < 2 ^ 31
  · rw [if_pos hint]
    simp only [Option.pure_def, Option.bind_eq_bind, Option.bind_some, Option.map_some,
      Option.some.injEq, exists_eq_left', finishHost_port, forall_const, Bool.true_eq_false,
      UInt16.toNat_ofNat']
    constructor
    · intro h
      exact h.1.2
    · intro h
      exact ⟨⟨Nat.mod_eq_of_lt (by omega), h⟩, by omega⟩
  · rw [if_neg hint]
    refine iff_of_false ?_ (by omega)
    rintro ⟨r, hr, -⟩
    cases hr

/-- The result at the authority `a:80`. -/
theorem portAsWritten_http : PortAsWritten id .init (kglString "a:80") (kglString "80") :=
  (portAsWritten_iff id .init (@AuthorityText.plain _ (kglString "a") (by decide) (by decide))
    (digits_of_all (by decide) (by decide +kernel))).mpr (by decide +kernel)

/-- The port behind `a:65616` is taken for 80. -/
theorem largePort_not_asWritten :
    ¬PortAsWritten id .init (kglString "a:65616") (kglString "65616") := by
  rintro ⟨r, hr, -, hlarge⟩
  have hparse : parseUrlHost id .init (kglString "a:65616") =
      some ⟨true, ⟨some (kglString "a"), none, none, 80, kglUrlHasPort⟩⟩ := by decide +kernel
  cases hparse.symm.trans hr
  exact absurd (hlarge (by decide +kernel)) (by decide)

/-! ## URLs of the web -/

/-- The bytes that end a host do not stand in it. -/
structure HostPlain (ipv6 : Bool) (host : Bytes) : Prop where
  plain : ∀ c ∈ host, c ≠ 0 ∧ c ≠ 47 ∧ c ≠ if ipv6 then 93 else 58
  head : ipv6 = false → host.head? ≠ some 91

/-- An absolute URL with its parts: the bytes that end a part do not stand in it. -/
structure WebUrl where
  secure : Bool
  ipv6 : Bool
  host : Bytes
  port : Option UInt16
  path : Bytes
  param : Bytes
  host_plain : HostPlain ipv6 host
  path_head : path.head? = some 47
  path_plain : ∀ c ∈ path, c ≠ 0 ∧ c ≠ 63
  param_plain : ∀ c ∈ param, c ≠ 0

/-- The flags of a URL. -/
def urlFlags (secure ipv6 hasPort : Bool) : UInt16 :=
  (if secure then kglUrlOrigSsl else 0) ||| (if ipv6 then kglUrlIpv6 else 0) |||
    if hasPort then kglUrlHasPort else 0

/-- What `kgl_url` holds of a URL before its path. -/
def hostUrl (secure ipv6 : Bool) (host : Bytes) (port : Option UInt16) : KglUrl where
  host := some host
  path := none
  param := none
  port := port.getD (if secure then 443 else 80)
  flags := urlFlags secure ipv6 port.isSome

namespace WebUrl

/-- The URL with the other scheme. -/
def withSecure (u : WebUrl) (secure : Bool) : WebUrl := { u with secure := secure }

/-- How `kgl_url` represents a URL. -/
def toUrl (u : WebUrl) : KglUrl :=
  { hostUrl u.secure u.ipv6 u.host u.port with
    path := some u.path
    param := if u.param = [] then none else some u.param }

def authority (u : WebUrl) : Bytes :=
  (if u.ipv6 then 91 :: u.host ++ [93] else u.host) ++
    match u.port with
    | some port => 58 :: decimal port.toNat
    | none => []

/-- The text behind the authority. -/
def target (u : WebUrl) : Bytes := u.path ++ if u.param = [] then [] else 63 :: u.param

/-- The text of a URL. -/
def text (u : WebUrl) : Bytes :=
  kglString (if u.secure then "https://" else "http://") ++ (u.authority ++ u.target)

end WebUrl

/-- The copy of a string is what stands before its first terminator. -/
def IsStrndup (strndup : Bytes → Bytes) : Prop := ∀ s, strndup s = s.takeWhile (· ≠ 0)

theorem IsStrndup.plain (hdup : IsStrndup strndup) {s : Bytes} (h : ∀ c ∈ s, c ≠ 0) :
    strndup s = s := by
  rw [hdup, List.takeWhile_eq_self_iff]
  simpa using h

/-! ### Printing -/

theorem kbitTest_urlFlags (secure ipv6 hasPort : Bool) :
    kbitTest (urlFlags secure ipv6 hasPort) kglUrlSsl = false ∧
      kbitTest (urlFlags secure ipv6 hasPort) kglUrlOrigSsl = secure ∧
      kbitTest (urlFlags secure ipv6 hasPort) kglUrlIpv6 = ipv6 ∧
      kbitTest (urlFlags secure ipv6 hasPort) kglUrlHasPort = hasPort := by
  cases secure <;> cases ipv6 <;> cases hasPort <;> decide

/-- `KUrl` prints a URL with the scheme `http`. -/
theorem getUrl_toUrl (u : WebUrl) : u.toUrl.getUrl false = some (u.withSecure false).text := by
  obtain ⟨hssl, -, hipv6, hport⟩ := kbitTest_urlFlags u.secure u.ipv6 u.port.isSome
  have hhost : buildUrlHostPort u.toUrl u.host = u.authority := by
    unfold buildUrlHostPort WebUrl.authority
    simp only [WebUrl.toUrl, hostUrl, hipv6, hport]
    cases u.port <;> rfl
  have hpath : u.toUrl.getPath u.path false = u.target := by
    unfold KglUrl.getPath WebUrl.target
    simp only [WebUrl.toUrl]
    by_cases hparam : u.param = []
    · simp [hparam]
    · simp only [if_neg hparam]
      obtain ⟨c, rest, hcons⟩ := List.exists_cons_of_ne_nil hparam
      rw [hcons]
      rfl
  have hschema : u.toUrl.getSchema = some (kglString "http://") := by
    unfold KglUrl.getSchema
    rw [if_neg (by simp [WebUrl.toUrl, hostUrl])]
    simp [WebUrl.toUrl, hostUrl, hssl]
  have hget : u.toUrl.getUrl false = u.toUrl.getSchema.map fun schema =>
      schema ++ (buildUrlHostPort u.toUrl u.host ++ u.toUrl.getPath u.path false) := by
    unfold KglUrl.getUrl
    cases u.toUrl.getSchema <;> rfl
  rw [hget, hschema, hhost, hpath]
  rfl

/-! ### The printed port -/

theorem toNat_digit {c : Char} (h : c.isDigit = true) :
    48 ≤ c.toNat ∧ c.toNat ≤ 57 ∧ (UInt8.ofNat c.toNat).toNat = c.toNat := by
  simp only [Char.isDigit, Bool.and_eq_true, decide_eq_true_eq, ge_iff_le,
    UInt32.le_iff_toNat_le] at h
  have hlow : 48 ≤ c.toNat := h.1
  have hhigh : c.toNat ≤ 57 := h.2
  refine ⟨hlow, hhigh, ?_⟩
  rw [UInt8.toNat_ofNat']
  omega

theorem digits_decimal (value : ℕ) : Digits (decimal value) := by
  constructor
  · simp [decimal]
  · intro b hb
    obtain ⟨c, hc, rfl⟩ := List.mem_map.mp hb
    obtain ⟨hlow, hhigh, htoNat⟩ :=
      toNat_digit (Nat.isDigit_of_mem_toDigits (by decide) le_rfl hc)
    simp only [isDigit, Bool.and_eq_true, decide_eq_true_eq, UInt8.le_iff_toNat_le, htoNat]
    exact ⟨hlow, hhigh⟩

theorem decimalValue_decimal (value : ℕ) : decimalValue (decimal value) = value := by
  rw [← foldl_decimal, decimal, List.foldl_map]
  have hsame : (Nat.toDigits 10 value).foldl
      (fun n c => n * 10 + ((UInt8.ofNat c.toNat).toNat - 48)) 0 =
        Nat.ofDigitChars 10 (Nat.toDigits 10 value) 0 := by
    rw [Nat.ofDigitChars_eq_foldl]
    apply List.foldl_ext
    intro n c hc
    have hdigit := toNat_digit (Nat.isDigit_of_mem_toDigits (by decide) le_rfl hc)
    rw [hdigit.2.2, Nat.mul_comm]
    rfl
  rw [hsame, Nat.ofDigitChars_ten_toDigits]

theorem setPort_decimal (url : KglUrl) (port : UInt16) :
    setPort url (some (decimal port.toNat)) = some { url with port := port } := by
  have hlt : port.toNat < 2 ^ 31 := lt_trans port.toNat_lt (by decide)
  rw [setPort, kglAtoi_digits (digits_decimal port.toNat), decimalValue_decimal, if_pos hlt]
  simp

/-! ### Parsing -/

/-- An absolute URL: its scheme, in letters of any case, and what follows `://`. -/
def AbsoluteUrl (secure : Bool) (src : Bytes) : Prop :=
  ∃ scheme rest, src = scheme ++ (kglString "://" ++ rest) ∧
    memCaseSame scheme (kglString (if secure then "https" else "http")) = true

/-- A URL of which the scheme is known. -/
def schemeUrl (secure : Bool) : KglUrl :=
  { KglUrl.init with flags := if secure then kglUrlOrigSsl else 0 }

theorem length_of_memCaseSame {a b : Bytes} (h : memCaseSame a b = true) : a.length = b.length := by
  simp only [memCaseSame, beq_iff_eq] at h
  simpa using congrArg List.length h

theorem setScheme_same {secure : Bool} {scheme : Bytes}
    (h : memCaseSame scheme (kglString (if secure then "https" else "http")) = true) :
    setScheme .init scheme = schemeUrl secure := by
  unfold setScheme
  cases secure with
  | false => exact if_pos h
  | true =>
    have hother : ¬memCaseSame scheme (kglString "http") = true := by
      intro hsame
      have hlen := (length_of_memCaseSame hsame).symm.trans (length_of_memCaseSame h)
      exact absurd hlen (by decide)
    rw [if_neg hother]
    exact if_pos h

/-- The letters of a scheme. -/
theorem scheme_letters {secure : Bool} {scheme : Bytes}
    (h : memCaseSame scheme (kglString (if secure then "https" else "http")) = true) :
    scheme ≠ [] ∧ ∀ c ∈ scheme, c ≠ 42 ∧ c ≠ 47 ∧ c ≠ 58 := by
  constructor
  · rintro rfl
    cases secure <;> exact absurd h (by decide)
  · intro c hc
    simp only [memCaseSame, beq_iff_eq] at h
    have hmem : toLower c ∈ (kglString (if secure then "https" else "http")).map toLower := by
      rw [← h]
      exact List.mem_map_of_mem hc
    refine ⟨?_, ?_, ?_⟩ <;>
    · rintro rfl
      cases secure <;> exact absurd hmem (by decide)

/-- `parse_url` on an absolute URL. -/
theorem parseUrl_absolute {secure : Bool} {scheme : Bytes} (rest : Bytes)
    (h : memCaseSame scheme (kglString (if secure then "https" else "http")) = true) :
    parseUrl strndup (scheme ++ (kglString "://" ++ rest)) .init =
      match memchr 47 rest with
      | none => some ⟨false, schemeUrl secure⟩
      | some (authority, path) =>
        (parseUrlHost strndup (schemeUrl secure) authority).map fun parsed =>
          if parsed.ok then ⟨true, onlyPath strndup parsed.url (47 :: path)⟩ else parsed := by
  obtain ⟨hne, hletters⟩ := scheme_letters h
  have hcolon : (58 : Byte) ∉ scheme := fun hc => (hletters 58 hc).2.2 rfl
  have hfind := kglMemstr_append (kglString "//") hcolon rest
  obtain ⟨c, letters, rfl⟩ := List.exists_cons_of_ne_nil hne
  have hc := hletters c List.mem_cons_self
  have hscheme : kglString "://" = 58 :: kglString "//" := by decide
  rw [hscheme]
  unfold parseUrl
  simp only [List.cons_append] at hfind ⊢
  rw [if_neg (by rintro (hc' | hc') <;> simp [hc'] at hc)]
  rw [hscheme, hfind]
  simp only [setScheme_same h]
  cases memchr 47 rest with
  | none => rfl
  | some r =>
    simp only
    cases parseUrlHost strndup (schemeUrl secure) r.1 with
    | none => rfl
    | some parsed =>
      simp only [Option.bind_eq_bind, Option.bind_some, Option.map_some, Option.pure_def]
      split <;> rfl

/-- The URL with a path and parameters, each in its raw form. -/
def pathUrl (url : KglUrl) (path param : Bytes) : KglUrl :=
  { url with
    path := some (path.takeWhile (· ≠ 0))
    param := if param.takeWhile (· ≠ 0) = [] then none else some (param.takeWhile (· ≠ 0)) }

section OnlyPath

variable (hdup : IsStrndup strndup) {url : KglUrl} (hparam : url.param = none)
include hdup hparam

/-- A path with a mark behind it. -/
theorem onlyPath_mark {path : Bytes} (hmark : (63 : Byte) ∉ path) (param : Bytes) :
    onlyPath strndup url (path ++ 63 :: param) = pathUrl url path param := by
  unfold onlyPath pathUrl
  rw [memchr_append hmark]
  simp only [hdup path, hdup param]
  split <;> simp_all

theorem onlyPath_plain {path : Bytes} (hmark : (63 : Byte) ∉ path) :
    onlyPath strndup url path = pathUrl url path [] := by
  unfold onlyPath pathUrl
  rw [memchr_of_not_mem hmark]
  simp [hdup path, hparam]

/-- The path and the parameters behind an authority. -/
theorem onlyPath_target {path param : Bytes} (hmark : (63 : Byte) ∉ path) :
    onlyPath strndup url (path ++ if param = [] then [] else 63 :: param) =
      pathUrl url path param := by
  by_cases hnil : param = []
  · rw [if_pos hnil, List.append_nil, hnil]
    exact onlyPath_plain hdup hparam hmark
  · rw [if_neg hnil]
    exact onlyPath_mark hdup hparam hmark param

/-- Every text has a path and parameters. -/
theorem onlyPath_cases (text : Bytes) : ∃ path param : Bytes, (63 : Byte) ∉ path ∧
    onlyPath strndup url (47 :: text) = pathUrl url (47 :: path) param := by
  have hslash (path : Bytes) (hmark : (63 : Byte) ∉ path) : (63 : Byte) ∉ 47 :: path := by
    simp [hmark]
  cases hfind : memchr 63 text with
  | none =>
    have hmark := memchr_eq_none hfind
    exact ⟨text, [], hmark, onlyPath_plain hdup hparam (hslash text hmark)⟩
  | some r =>
    obtain ⟨hmark, rfl⟩ := memchr_eq_some (show memchr 63 text = some (r.1, r.2) from hfind)
    exact ⟨r.1, r.2, hmark, onlyPath_mark hdup hparam (hslash r.1 hmark) r.2⟩

end OnlyPath

/-- The URL in which `parse_url_host` puts a host. -/
def hostStart (secure ipv6 : Bool) : KglUrl :=
  if ipv6 then (schemeUrl secure).setFlag kglUrlIpv6 else schemeUrl secure

theorem hostStart_eq (secure ipv6 : Bool) :
    hostStart secure ipv6 = { KglUrl.init with flags := urlFlags secure ipv6 false } := by
  cases secure <;> cases ipv6 <;> decide

theorem finishHost_none (hdup : IsStrndup strndup) (secure ipv6 : Bool) (host : Bytes) :
    finishHost strndup (hostStart secure ipv6) host none =
      hostUrl secure ipv6 (host.takeWhile (· ≠ 0)) none := by
  obtain ⟨-, hsecure, -, -⟩ := kbitTest_urlFlags secure ipv6 false
  rw [hostStart_eq]
  simp only [finishHost, hdup host, hsecure]
  rfl

theorem finishHost_some (hdup : IsStrndup strndup) (secure ipv6 : Bool) (host digits : Bytes)
    (port : UInt16) :
    finishHost strndup { hostStart secure ipv6 with port := port } host (some digits) =
      hostUrl secure ipv6 (host.takeWhile (· ≠ 0)) (some port) := by
  simp only [finishHost, hdup host]
  cases secure <;> cases ipv6 <;> rfl

/-- What stands before a terminator, of a host in its raw form. -/
theorem hostPlain_takeWhile {ipv6 : Bool} {host : Bytes} (hslash : (47 : Byte) ∉ host)
    (hend : (if ipv6 then 93 else 58 : Byte) ∉ host) (hhead : ipv6 = false → host.head? ≠ some 91) :
    HostPlain ipv6 (host.takeWhile (· ≠ 0)) := by
  constructor
  · intro c hc
    have hmem : c ∈ host := (List.takeWhile_sublist _).mem hc
    refine ⟨by simpa using List.mem_takeWhile_imp hc, ?_, ?_⟩
    · rintro rfl
      exact hslash hmem
    · rintro rfl
      exact hend hmem
  · intro hplain
    have hfirst := hhead hplain
    cases host with
    | nil => simp
    | cons c host =>
      rw [List.takeWhile_cons]
      split
      · simpa using hfirst
      · simp

theorem setPort_some {url url' : KglUrl} {digits : Bytes}
    (h : setPort url (some digits) = some url') :
    ∃ port, url' = { url with port := port } := by
  simp only [setPort, Option.pure_def, Option.bind_eq_bind, Option.bind_eq_some_iff,
    Option.some.injEq] at h
  obtain ⟨value, -, rfl⟩ := h
  exact ⟨_, rfl⟩

/-- An accepted authority has a plain host. -/
theorem host_of_accepted (hdup : IsStrndup strndup) {secure : Bool} {authority : Bytes}
    {parsed : ParsedUrl} (hslash : (47 : Byte) ∉ authority)
    (hparse : parseUrlHost strndup (schemeUrl secure) authority = some parsed)
    (hok : parsed.ok = true) :
    ∃ ipv6 host port, HostPlain ipv6 host ∧ parsed.url = hostUrl secure ipv6 host port := by
  by_cases hbracket : authority.head? = some 91
  · obtain ⟨val, rfl⟩ : ∃ val, authority = 91 :: val := by
      cases authority with
      | nil => cases hbracket
      | cons c val =>
        cases hbracket
        exact ⟨val, rfl⟩
    cases hclose : memchr 93 val with
    | none =>
      simp only [parseUrlHost, hclose, Option.some.injEq] at hparse
      subst hparse
      cases hok
    | some r =>
      obtain ⟨hend, rfl⟩ := memchr_eq_some (show memchr 93 val = some (r.1, r.2) from hclose)
      have hplain : HostPlain true (r.1.takeWhile (· ≠ 0)) := by
        refine hostPlain_takeWhile ?_ hend (by simp)
        intro hmem
        exact hslash (List.mem_cons_of_mem 91 (List.mem_append_left _ hmem))
      rw [parseUrlHost_ipv6 strndup hend] at hparse
      obtain ⟨url', hport, rfl⟩ := Option.map_eq_some_iff.mp hparse
      cases hdigits : (memchr 58 r.2).map Prod.snd with
      | none =>
        rw [hdigits] at hport
        cases hport
        refine ⟨true, _, none, hplain, ?_⟩
        exact finishHost_none hdup secure true r.1
      | some digits =>
        rw [hdigits] at hport
        obtain ⟨port, rfl⟩ := setPort_some hport
        refine ⟨true, _, some port, hplain, ?_⟩
        exact finishHost_some hdup secure true r.1 digits port
  · rw [parseUrlHost_plain strndup hbracket] at hparse
    cases hcolon : memchr 58 authority with
    | none =>
      rw [hcolon] at hparse
      cases hparse
      have hend : (58 : Byte) ∉ authority := memchr_eq_none hcolon
      refine ⟨false, _, none, hostPlain_takeWhile hslash hend fun _ => hbracket, ?_⟩
      exact finishHost_none hdup secure false authority
    | some r =>
      obtain ⟨hend, rfl⟩ := memchr_eq_some (show memchr 58 authority = some (r.1, r.2) from hcolon)
      rw [hcolon] at hparse
      obtain ⟨url', hport, rfl⟩ := Option.map_eq_some_iff.mp hparse
      obtain ⟨port, rfl⟩ := setPort_some hport
      have hslash' : (47 : Byte) ∉ r.1 := fun hmem => hslash (List.mem_append_left _ hmem)
      have hhead : r.1.head? ≠ some 91 := by
        intro h
        obtain ⟨tail, htail⟩ := List.head?_eq_some_iff.mp h
        exact hbracket (by rw [htail]; rfl)
      exact ⟨false, _, some port, hostPlain_takeWhile hslash' hend fun _ => hhead,
        finishHost_some hdup secure false r.1 r.2 port⟩

/-- The text of an authority is parsed to its parts. -/
theorem parseUrlHost_authority (hdup : IsStrndup strndup) (u : WebUrl) :
    parseUrlHost strndup (schemeUrl u.secure) u.authority =
      some ⟨true, hostUrl u.secure u.ipv6 u.host u.port⟩ := by
  have hhost : u.host.takeWhile (· ≠ 0) = u.host := by
    rw [List.takeWhile_eq_self_iff]
    simpa using fun c hc => (u.host_plain.plain c hc).1
  have hend : (if u.ipv6 then 93 else 58 : Byte) ∉ u.host :=
    fun hmem => (u.host_plain.plain _ hmem).2.2 rfl
  have hnone : some (ParsedUrl.mk true
    (finishHost strndup (hostStart u.secure u.ipv6) u.host none)) =
      some ⟨true, hostUrl u.secure u.ipv6 u.host none⟩ := by
    rw [finishHost_none hdup, hhost]
  have hsome (digits : Bytes) (port : UInt16) :
      some (ParsedUrl.mk true (finishHost strndup { hostStart u.secure u.ipv6 with port := port }
        u.host (some digits))) = some ⟨true, hostUrl u.secure u.ipv6 u.host (some port)⟩ := by
    rw [finishHost_some hdup, hhost]
  unfold WebUrl.authority
  cases hipv6 : u.ipv6 with
  | true =>
    rw [hipv6] at hend hnone hsome
    cases u.port with
    | none =>
      have hparse := parseUrlHost_ipv6 strndup hend [] (schemeUrl u.secure)
      simp only [if_true, List.append_nil, List.cons_append]
      exact hparse.trans hnone
    | some port =>
      have hparse := parseUrlHost_ipv6 strndup hend (58 :: decimal port.toNat)
        (schemeUrl u.secure)
      have hcolon : (memchr 58 (58 :: decimal port.toNat)).map Prod.snd =
        some (decimal port.toNat) := rfl
      simp only [hcolon, setPort_decimal, Option.map_some] at hparse
      simp only [if_true, List.cons_append, List.append_assoc, List.nil_append]
      exact hparse.trans (hsome (decimal port.toNat) port)
  | false =>
    rw [hipv6] at hnone hsome
    have hcolon : (58 : Byte) ∉ u.host := by
      rw [hipv6] at hend
      exact hend
    have hhead := u.host_plain.head hipv6
    cases u.port with
    | none =>
      have hparse := parseUrlHost_plain strndup hhead (schemeUrl u.secure)
      rw [memchr_of_not_mem hcolon] at hparse
      simp only [Bool.false_eq_true, if_false, List.append_nil]
      exact hparse.trans hnone
    | some port =>
      have hhead' : (u.host ++ 58 :: decimal port.toNat).head? ≠ some 91 := by
        cases h : u.host with
        | nil => simp
        | cons c host => simpa [h] using hhead
      have hparse := parseUrlHost_plain strndup hhead' (schemeUrl u.secure)
      rw [memchr_append hcolon] at hparse
      simp only [setPort_decimal, Option.map_some] at hparse
      simp only [Bool.false_eq_true, if_false]
      exact hparse.trans (hsome (decimal port.toNat) port)

theorem slash_not_authority (u : WebUrl) : (47 : Byte) ∉ u.authority := by
  have hhost : (47 : Byte) ∉ u.host := fun hmem => (u.host_plain.plain 47 hmem).2.1 rfl
  have hdecimal (port : UInt16) : (47 : Byte) ∉ decimal port.toNat := by
    intro hmem
    exact absurd ((digits_decimal port.toNat).all 47 hmem) (by decide)
  unfold WebUrl.authority
  cases u.ipv6 <;> cases u.port <;> simp [hhost, hdecimal]

/-- The text of a URL is parsed to the URL. -/
theorem parseUrl_text (hdup : IsStrndup strndup) (u : WebUrl) :
    parseUrl strndup u.text .init = some ⟨true, u.toUrl⟩ := by
  have htext : u.text = kglString (if u.secure then "https" else "http") ++
      (kglString "://" ++ (u.authority ++ u.target)) := by
    unfold WebUrl.text
    rw [← List.append_assoc (kglString _) (kglString "://")]
    cases u.secure <;> rfl
  have hsame (a : Bytes) : memCaseSame a a = true := by simp [memCaseSame]
  obtain ⟨path, hpath⟩ := List.head?_eq_some_iff.mp u.path_head
  have htarget : u.authority ++ u.target =
      u.authority ++ 47 :: (path ++ if u.param = [] then [] else 63 :: u.param) := by
    rw [WebUrl.target, hpath]
    rfl
  have hmark : (63 : Byte) ∉ u.path := fun hmem => (u.path_plain 63 hmem).2 rfl
  have hpathPlain : u.path.takeWhile (· ≠ 0) = u.path := by
    rw [List.takeWhile_eq_self_iff]
    simpa using fun c hc => (u.path_plain c hc).1
  have hparamPlain : u.param.takeWhile (· ≠ 0) = u.param := by
    rw [List.takeWhile_eq_self_iff]
    simpa using u.param_plain
  have honly : onlyPath strndup (hostUrl u.secure u.ipv6 u.host u.port)
      (u.path ++ if u.param = [] then [] else 63 :: u.param) = u.toUrl := by
    rw [onlyPath_target hdup rfl hmark, pathUrl, hpathPlain, hparamPlain]
    rfl
  rw [htext, parseUrl_absolute _ (hsame _), htarget, memchr_append (slash_not_authority u)]
  simp only [parseUrlHost_authority hdup u, Option.map_some, if_true]
  rw [hpath, List.cons_append] at honly
  rw [honly]

/-- An accepted absolute URL is a URL of the web. -/
theorem webUrl_of_accepted (hdup : IsStrndup strndup) {secure : Bool} {src : Bytes} {url : KglUrl}
    (habsolute : AbsoluteUrl secure src)
    (hparse : parseUrl strndup src .init = some ⟨true, url⟩) :
    ∃ u : WebUrl, u.secure = secure ∧ url = u.toUrl := by
  obtain ⟨scheme, rest, rfl, hscheme⟩ := habsolute
  rw [parseUrl_absolute rest hscheme] at hparse
  cases hslash : memchr 47 rest with
  | none =>
    rw [hslash] at hparse
    cases hparse
  | some r =>
    obtain ⟨hauthority, rfl⟩ := memchr_eq_some (show memchr 47 rest = some (r.1, r.2) from hslash)
    rw [hslash] at hparse
    obtain ⟨parsed, hhost, hurl⟩ := Option.map_eq_some_iff.mp hparse
    have hok : parsed.ok = true := by
      by_contra hno
      rw [if_neg hno] at hurl
      exact hno (congrArg ParsedUrl.ok hurl)
    obtain ⟨ipv6, host, port, hplain, hparsed⟩ := host_of_accepted hdup hauthority hhost hok
    obtain ⟨path, param, hmark, honly⟩ :=
      onlyPath_cases hdup (show (hostUrl secure ipv6 host port).param = none from rfl) r.2
    rw [if_pos hok, hparsed, honly] at hurl
    refine ⟨⟨secure, ipv6, host, port, (47 :: path).takeWhile (· ≠ 0), param.takeWhile (· ≠ 0),
      hplain, by simp, ?_, ?_⟩, rfl, (congrArg ParsedUrl.url hurl).symm⟩
    · intro c hc
      refine ⟨by simpa using List.mem_takeWhile_imp hc, ?_⟩
      rintro rfl
      have hmem := (List.takeWhile_sublist _).mem hc
      simp [hmark] at hmem
    · intro c hc
      simpa using List.mem_takeWhile_imp hc

/-! ### The round trip -/

/-- A URL is printed, and the text is parsed to what it was. -/
def UrlRoundTrips (strndup : Bytes → Bytes) (url : KglUrl) : Prop :=
  ∃ text again, url.getUrl false = some text ∧ parseUrl strndup text .init = some ⟨true, again⟩ ∧
    kbitTest again.flags kglUrlOrigSsl = kbitTest url.flags kglUrlOrigSsl ∧ again.host = url.host ∧
      kbitTest again.flags kglUrlIpv6 = kbitTest url.flags kglUrlIpv6 ∧ again.port = url.port ∧
      kbitTest again.flags kglUrlHasPort = kbitTest url.flags kglUrlHasPort ∧
      again.path = url.path ∧ again.param = url.param

/-- A URL is read back as it was exactly when its scheme is `http`. -/
theorem urlRoundTrips_iff (hdup : IsStrndup strndup) {secure : Bool} {src : Bytes} {url : KglUrl}
    (habsolute : AbsoluteUrl secure src)
    (hparse : parseUrl strndup src .init = some ⟨true, url⟩) :
    UrlRoundTrips strndup url ↔ secure = false := by
  obtain ⟨u, rfl, rfl⟩ := webUrl_of_accepted hdup habsolute hparse
  have hget := getUrl_toUrl u
  have hagain := parseUrl_text hdup (u.withSecure false)
  constructor
  · rintro ⟨text, again, htext, hparsed, hscheme, -⟩
    cases hget.symm.trans htext
    cases hagain.symm.trans hparsed
    obtain ⟨-, hbefore, -⟩ := kbitTest_urlFlags u.secure u.ipv6 u.port.isSome
    obtain ⟨-, hafter, -⟩ := kbitTest_urlFlags false u.ipv6 u.port.isSome
    exact hbefore.symm.trans (hscheme.symm.trans hafter)
  · intro hsecure
    have hsame : u.withSecure false = u := by
      rw [← hsecure]
      rfl
    rw [hsame] at hagain hget
    exact ⟨_, _, hget, hagain, rfl, rfl, rfl, rfl, rfl, rfl, rfl⟩

theorem isStrndup_takeWhile : IsStrndup fun s => s.takeWhile (· ≠ 0) := fun _ => rfl

/-- The result at `http://a/`. -/
theorem urlRoundTrips_http : UrlRoundTrips (fun s => s.takeWhile (· ≠ 0))
    ⟨some (kglString "a"), some (kglString "/"), none, 80, 0⟩ :=
  (urlRoundTrips_iff isStrndup_takeWhile
    (show AbsoluteUrl false (kglString "http://a/") from
      ⟨kglString "http", kglString "a/", by decide +kernel, by decide +kernel⟩)
    (by decide +kernel)).mpr rfl

/-- The URL `https://a/` is printed as `http://a/`. -/
theorem httpsUrl_not_roundTrips :
    parseUrl (fun s => s.takeWhile (· ≠ 0)) (kglString "https://a/") .init =
        some ⟨true, ⟨some (kglString "a"), some (kglString "/"), none, 443, 64⟩⟩ ∧
      ¬UrlRoundTrips (fun s => s.takeWhile (· ≠ 0))
        ⟨some (kglString "a"), some (kglString "/"), none, 443, 64⟩ := by
  refine ⟨by decide +kernel, ?_⟩
  rintro ⟨text, again, htext, hparsed, hscheme, -⟩
  have hget : KglUrl.getUrl ⟨some (kglString "a"), some (kglString "/"), none, 443, 64⟩ false =
      some (kglString "http://a/") := by decide +kernel
  cases hget.symm.trans htext
  have hagain : parseUrl (fun s => s.takeWhile (· ≠ 0)) (kglString "http://a/") .init =
      some ⟨true, ⟨some (kglString "a"), some (kglString "/"), none, 80, 0⟩⟩ := by decide +kernel
  cases hagain.symm.trans hparsed
  exact absurd hscheme (by decide)

end Khttpd
