import Khttpd.Lib.TokenList
import Khttpd.Model.FieldValue

/-!
# Tokens in list-valued headers

`is` compares the start of what is left of the value, and no more of it than the token it looks for.
So the loops find a token where an element begins with it, not only where an element's token is
equal to it; and they miss a first element behind white space, which the constructor leaves there.
-/

set_option autoImplicit false

namespace Khttpd

open TokenList

/-! ## Comparing -/

theorem toLower_spec : ∀ n < 256, (toLower (UInt8.ofNat n) = 0 → UInt8.ofNat n = 0) ∧
    (TokenList.isTchar (UInt8.ofNat n) = true →
      TokenList.isTchar (toLower (UInt8.ofNat n)) = true) ∧
    (TokenList.isTchar (UInt8.ofNat n) = false →
      TokenList.isTchar (toLower (UInt8.ofNat n)) = false) := by
  decide +kernel

theorem isSpace_spec : ∀ n < 256, TokenList.isTchar (UInt8.ofNat n) = true →
    isSpace (UInt8.ofNat n) = false := by
  decide +kernel

theorem isSpace_of_isTchar {c : Byte} (h : TokenList.isTchar c = true) : isSpace c = false := by
  have hc := isSpace_spec c.toNat c.toNat_lt
  rw [UInt8.ofNat_toNat] at hc
  exact hc h

theorem toLower_eq_zero {c : Byte} (h : toLower c = 0) : c = 0 := by
  have hc := (toLower_spec c.toNat c.toNat_lt).1
  rw [UInt8.ofNat_toNat] at hc
  exact hc h

theorem isTchar_toLower (c : Byte) : TokenList.isTchar (toLower c) = TokenList.isTchar c := by
  have hc := (toLower_spec c.toNat c.toNat_lt).2
  rw [UInt8.ofNat_toNat] at hc
  cases h : TokenList.isTchar c with
  | true => exact hc.1 h
  | false => exact hc.2 h

namespace KHttpFieldValue

/-- `is` asks whether the value begins with the field, in any case. -/
theorem is_iff {val field : Bytes} (hnul : 0 ∉ field) :
    is val field = true ↔ field.map toLower <+: val.map toLower := by
  induction field generalizing val with
  | nil => simp [is, strncasecmpSame]
  | cons f field ih =>
    have hf : f ≠ 0 := fun h => hnul (h ▸ List.mem_cons_self)
    cases val with
    | nil => simp [is]
    | cons v val =>
      have hrest : is val field = true ↔ field.map toLower <+: val.map toLower :=
        ih fun h => hnul (List.mem_cons_of_mem _ h)
      rw [List.map_cons, List.map_cons, List.cons_prefix_cons, ← hrest]
      unfold is
      by_cases hshort : val.length < field.length
      · rw [if_pos (by simpa using hshort), if_pos hshort]
        simp
      · rw [if_neg (by simpa using hshort), if_neg hshort]
        simp only [List.length_cons, strncasecmpSame, List.getD_cons_zero, List.drop_succ_cons,
          List.drop_zero, Bool.and_eq_true, beq_iff_eq, Bool.or_eq_true]
        constructor
        · rintro ⟨heq, hmore⟩
          refine ⟨heq.symm, hmore.resolve_left fun hv => hf ?_⟩
          rw [hv] at heq
          exact toLower_eq_zero heq.symm
        · rintro ⟨heq, hmore⟩
          exact ⟨heq.symm, Or.inr hmore⟩

/-! ## The fields that a loop visits -/

/-- The positions of `val` in a loop of at most `fuel + 1` rounds. -/
def fields : ℕ → Bytes → List Bytes
  | 0, val => [val]
  | fuel + 1, val =>
    match next val with
    | none => [val]
    | some val' => val :: fields fuel val'

theorem loop_eq {σ : Type} (body : σ → Bytes → σ) (fuel : ℕ) (s : σ) (val : Bytes) :
    loop body fuel s val = (fields fuel val).foldl body s := by
  induction fuel generalizing s val with
  | zero => rfl
  | succ fuel ih =>
    unfold loop fields
    cases next val with
    | none => rfl
    | some val' => exact ih (body s val) val'

theorem containLoop_eq (field : Bytes) (fuel : ℕ) (val : Bytes) :
    containLoop field fuel val = (fields fuel val).any fun v => is v field := by
  induction fuel generalizing val with
  | zero => simp [containLoop, fields]
  | succ fuel ih =>
    unfold containLoop fields
    cases hnext : next val with
    | none => simp
    | some val' =>
      simp only [ih, List.any_cons]
      cases is val field <;> rfl

/-- Every flag that a loop sets and never clears tells whether some field was one that sets it. -/
theorem foldl_flag {σ : Type} {body : σ → Bytes → σ} {flag : σ → Bool} {sets : Bytes → Bool}
    (h : ∀ s v, flag (body s v) = (flag s || sets v)) (vals : List Bytes) (s : σ) :
    flag (vals.foldl body s) = (flag s || vals.any sets) := by
  induction vals generalizing s with
  | nil => simp
  | cons v vals ih => rw [List.foldl_cons, ih, h, List.any_cons, Bool.or_assoc]

theorem any_either (vals : List Bytes) (p q : Bytes → Bool) :
    (vals.any fun v => p v || q v) = (vals.any p || vals.any q) := by
  rw [Bool.eq_iff_iff]
  simp only [List.any_eq_true, Bool.or_eq_true, and_or_left, exists_or]

theorem parse_flag {σ : Type} {body : σ → Bytes → σ} {flag : σ → Bool} {field : Bytes}
    (h : ∀ s v, flag (body s v) = (flag s || is v field)) (s : σ) (val : Bytes) :
    flag (parse body s val) = (flag s || contain val field) := by
  unfold parse contain
  rw [loop_eq, containLoop_eq, foldl_flag h]

/-! ## Elements -/

/-- Whether the token of an element begins with `t`. -/
def Begins (t : Bytes) (e : Element) : Prop := t.map toLower <+: e.token.map toLower

/-- Whether the token of an element is `t`. -/
def Equals (t : Bytes) (e : Element) : Prop := e.token.map toLower = t.map toLower

theorem Equals.begins {t : Bytes} {e : Element} (h : Equals t e) : Begins t e := by
  have hsame : t.map toLower ++ [] = e.token.map toLower := by rw [List.append_nil, h]
  exact ⟨[], hsame⟩

theorem zero_notMem {t : Bytes} (ht : IsToken t) : 0 ∉ t := fun h =>
  (ne_of_isTchar (List.all_eq_true.mp ht.2 0 h)).1 rfl

theorem tchar_of_mem_map {t : Bytes} (ht : IsToken t) {c : Byte} (hc : c ∈ t.map toLower) :
    TokenList.isTchar c = true := by
  obtain ⟨b, hb, rfl⟩ := List.mem_map.mp hc
  rw [isTchar_toLower]
  exact List.all_eq_true.mp ht.2 b hb

/-- What `is` finds at an element: a token that begins with the one it looks for, and no white
space before it. -/
theorem is_element {t : Bytes} (ht : IsToken t) (e : Element) {rest : Bytes}
    (hrest : ∀ c ∈ rest.head?, c = 44) :
    is (e.text ++ rest) t = true ↔ e.before = [] ∧ Begins t e := by
  rw [is_iff (zero_notMem ht)]
  obtain ⟨c, t', hct⟩ := List.exists_cons_of_ne_nil ht.1
  have hmap : t.map toLower ≠ [] := by simp [hct]
  cases hbefore : e.before with
  | cons b before =>
    have hblank := e.blank_before
    rw [hbefore, List.all_cons, Bool.and_eq_true] at hblank
    refine iff_of_false (fun h => ?_) fun h => by cases h.1
    have htext : (e.text ++ rest).map toLower =
        toLower b :: (before ++ (e.token ++ e.tail) ++ rest).map toLower := by
      simp [Element.text, hbefore]
    rw [htext, hct, List.map_cons, List.cons_prefix_cons] at h
    have htchar : TokenList.isTchar (toLower c) = true :=
      tchar_of_mem_map ht (by rw [hct]; exact List.mem_cons_self)
    rw [h.1, isTchar_toLower, (isTchar_of_isOws hblank.1).1] at htchar
    cases htchar
  | nil =>
    have htext : (e.text ++ rest).map toLower =
        e.token.map toLower ++ (e.tail ++ rest).map toLower := by
      simp [Element.text, hbefore]
    rw [htext]
    refine Iff.trans ?_ (and_iff_right rfl).symm
    constructor
    · intro h
      rcases List.prefix_or_prefix_of_prefix h (List.prefix_append _ _) with hle | ⟨more, hmore⟩
      · exact hle
      · rw [← hmore, List.prefix_append_right_inj] at h
        cases more with
        | nil =>
          have hsame : t.map toLower = e.token.map toLower := by rw [← hmore, List.append_nil]
          exact Equals.begins hsame.symm
        | cons m more =>
          -- a token goes on where the element does not
          have htchar : TokenList.isTchar m = true :=
            tchar_of_mem_map ht (by rw [← hmore]; simp)
          have hhead := e.tail_head rest hrest
          cases htail : e.tail ++ rest with
          | nil =>
            rw [htail] at h
            cases List.prefix_nil.mp h
          | cons b tail =>
            rw [htail, List.map_cons, List.cons_prefix_cons] at h
            have hb := hhead b (by rw [htail]; rfl)
            rw [h.1, isTchar_toLower, hb] at htchar
            cases htchar
    · exact fun h => h.trans (List.prefix_append _ _)

/-- White space before the token of an element is skipped. -/
theorem dropWhile_element (e : Element) (rest : Bytes) :
    (e.text ++ rest).dropWhile isSpace = e.strip.text ++ rest := by
  obtain ⟨c, token, hc⟩ := List.exists_cons_of_ne_nil e.isToken.1
  have hspace : isSpace c = false := by
    have htchar := e.token_tchar (c := c) (by rw [hc]; exact List.mem_cons_self)
    exact isSpace_of_isTchar htchar
  have hblank : ∀ b ∈ e.before, isSpace b = true := fun b hb => by
    have := List.all_eq_true.mp e.blank_before b hb
    simp only [TokenList.isOws, Bool.or_eq_true, beq_iff_eq] at this
    rcases this with rfl | rfl <;> rfl
  have htext : e.text ++ rest = e.before ++ (e.token ++ e.tail ++ rest) := by
    simp [Element.text]
  have hstrip : e.strip.text ++ rest = e.token ++ e.tail ++ rest := rfl
  rw [htext, hstrip, List.dropWhile_append_of_pos hblank, hc]
  exact List.dropWhile_cons_of_neg (by simp [hspace])

theorem next_render_singleton (e : Element) : next e.text = none := by
  unfold next getFieldEnd
  rw [memchr_of_not_mem e.comma_notMem_text]
  rfl

theorem next_render (e e' : Element) (es : List Element) :
    next (render (e :: e' :: es)) = some (render (e'.strip :: es)) := by
  unfold next getFieldEnd
  rw [render_cons_cons, memchr_append e.comma_notMem_text]
  simp only [Option.map_some, Option.some_inj]
  cases es with
  | nil =>
    have hdrop := dropWhile_element e' []
    simpa using hdrop
  | cons e'' es =>
    rw [render_cons_cons, render_cons_cons]
    exact dropWhile_element e' _

/-- What a loop finds in a list. -/
theorem any_fields {t : Bytes} (ht : IsToken t) (e : Element) (es : List Element) {fuel : ℕ}
    (hfuel : es.length ≤ fuel) :
    ((fields fuel (render (e :: es))).any fun v => is v t) = true ↔
      (e.before = [] ∧ Begins t e) ∨ ∃ e' ∈ es, Begins t e' := by
  induction es generalizing e fuel with
  | nil =>
    have hfields : fields fuel (render [e]) = [e.text] := by
      cases fuel with
      | zero => rw [fields, render_singleton]
      | succ fuel => rw [fields, render_singleton, next_render_singleton]
    have hend : ∀ c ∈ ([] : Bytes).head?, c = 44 := fun c hc => by cases hc
    have hone := is_element ht e hend
    rw [List.append_nil] at hone
    rw [hfields]
    simp [hone]
  | cons e' es ih =>
    cases fuel with
    | zero => cases hfuel
    | succ fuel =>
      have hcomma : ∀ c ∈ (44 :: render (e' :: es)).head?, c = 44 := fun c hc => by
        cases hc
        rfl
      have hone := is_element ht e hcomma
      have hmore := ih e'.strip (Nat.le_of_succ_le_succ hfuel)
      rw [fields, next_render]
      simp only [List.any_cons, Bool.or_eq_true, hmore]
      rw [render_cons_cons, hone]
      have hstrip : (e'.strip.before = [] ∧ Begins t e'.strip) ↔ Begins t e' :=
        and_iff_right rfl
      rw [hstrip]
      simp only [List.mem_cons, exists_eq_or_imp]

theorem length_render (e : Element) (es : List Element) :
    es.length ≤ (render (e :: es)).length := by
  induction es generalizing e with
  | nil => exact Nat.zero_le _
  | cons e' es ih =>
    have := ih e'
    rw [render_cons_cons, List.length_append]
    simp only [List.length_cons]
    omega

/-- `contain` finds an element whose token begins with the one it looks for, unless that is the
first one and there is white space before it. -/
theorem contain_render {t : Bytes} (ht : IsToken t) (e : Element) (es : List Element) :
    contain (render (e :: es)) t = true ↔
      (e.before = [] ∧ Begins t e) ∨ ∃ e' ∈ es, Begins t e' := by
  unfold contain init
  rw [containLoop_eq]
  exact any_fields ht e es (length_render e es)

theorem contain_nil {t : Bytes} (ht : IsToken t) : contain [] t = false := by
  obtain ⟨c, t', hct⟩ := List.exists_cons_of_ne_nil ht.1
  simp [contain, containLoop, init, is, hct]

/-! ## Whole tokens -/

/-- The elements that the code looks at: all but a first one behind white space. -/
def seen (es : List Element) : List Element :=
  match es with
  | [] => []
  | e :: es => if e.before = [] then e :: es else es

/-- The token is not in the list, but one that extends it is. -/
def Extended (es : List Element) (t : Bytes) : Prop :=
  (∀ e ∈ es, ¬Equals t e) ∧ ∃ e ∈ seen es, Begins t e

/-- The token is that of the first element, behind white space, and no other element begins with
it. -/
def Hidden (es : List Element) (t : Bytes) : Prop :=
  ∃ e rest, es = e :: rest ∧ e.before ≠ [] ∧ Equals t e ∧ ∀ e' ∈ rest, ¬Begins t e'

theorem seen_of_nil {e : Element} (h : e.before = []) (es : List Element) :
    seen (e :: es) = e :: es := if_pos h

theorem seen_of_ne {e : Element} (h : e.before ≠ []) (es : List Element) :
    seen (e :: es) = es := if_neg h

theorem contain_seen {t : Bytes} (ht : IsToken t) (es : List Element) :
    contain (render es) t = true ↔ ∃ e ∈ seen es, Begins t e := by
  cases es with
  | nil =>
    have hnil : render [] = [] := rfl
    rw [hnil, contain_nil ht]
    simp [seen]
  | cons e es =>
    rw [contain_render ht]
    by_cases hbefore : e.before = []
    · rw [seen_of_nil hbefore]
      simp [hbefore]
    · rw [seen_of_ne hbefore]
      simp [hbefore]

/-- What `contain` says is whether the list has the token, exactly when the token is neither
extended by another one nor hidden by white space. -/
theorem contain_exact {es : List Element} {t : Bytes} (ht : IsToken t) :
    (contain (render es) t = true ↔ ∃ e ∈ es, Equals t e) ↔ ¬Extended es t ∧ ¬Hidden es t := by
  rw [contain_seen ht]
  constructor
  · intro h
    refine ⟨fun ⟨hnone, hseen⟩ => ?_, ?_⟩
    · obtain ⟨e, he, hequal⟩ := h.mp hseen
      exact hnone e he hequal
    · rintro ⟨e, rest, rfl, hbefore, hequal, hrest⟩
      obtain ⟨e', he', hbegins⟩ := h.mpr ⟨e, List.mem_cons_self, hequal⟩
      rw [seen_of_ne hbefore] at he'
      exact hrest e' he' hbegins
  · rintro ⟨hext, hhid⟩
    constructor
    · intro hseen
      by_contra hnone
      exact hext ⟨fun e he hequal => hnone ⟨e, he, hequal⟩, hseen⟩
    · rintro ⟨e, he, hequal⟩
      by_contra hnone
      cases es with
      | nil => cases he
      | cons e0 rest =>
        by_cases hbefore : e0.before = []
        · rw [seen_of_nil hbefore] at hnone
          exact hnone ⟨e, he, hequal.begins⟩
        · rw [seen_of_ne hbefore] at hnone
          rcases List.mem_cons.mp he with rfl | he
          · exact hhid ⟨e, rest, rfl, hbefore, hequal, fun e' he' hb => hnone ⟨e', he', hb⟩⟩
          · exact hnone ⟨e, he, hequal.begins⟩

/-! ## The headers -/

/-- No position begins with two tokens whose first characters differ. -/
theorem not_is_of_is {v a b : Bytes} (ha : IsToken a) (hb : IsToken b)
    (hne : toLower (a.getD 0 0) ≠ toLower (b.getD 0 0)) (h : is v a = true) : is v b = false := by
  rw [is_iff (zero_notMem ha)] at h
  refine Bool.eq_false_iff.mpr fun hvb => hne ?_
  rw [is_iff (zero_notMem hb)] at hvb
  obtain ⟨x, a', rfl⟩ := List.exists_cons_of_ne_nil ha.1
  obtain ⟨y, b', rfl⟩ := List.exists_cons_of_ne_nil hb.1
  cases v with
  | nil => cases List.prefix_nil.mp h
  | cons z v =>
    rw [List.map_cons, List.map_cons, List.cons_prefix_cons] at h hvb
    exact h.1.trans hvb.1.symm

/-- A loop that sets a flag where `is` holds. -/
theorem parse_found (val t : Bytes) :
    parse (fun found v => found || is v t) false val = contain val t := by
  have hflag : ∀ (found : Bool) (v : Bytes), id (found || is v t) = (id found || is v t) :=
    fun _ _ => rfl
  exact (parse_flag hflag false val).trans (Bool.false_or _)

end KHttpFieldValue

open KHttpFieldValue

/-- `Connection` asks for an upgrade where it contains `upgrade`. -/
theorem parseConnection_upgrade (s : ConnectionFlags) (val : Bytes) :
    (parseConnection s val).connectionUpgrade =
      (s.connectionUpgrade || contain val (kglString "upgrade")) := by
  have hround : ∀ s v, (connectionField s v).connectionUpgrade =
      (s.connectionUpgrade || is v (kglString "upgrade")) := by
    intro s v
    unfold connectionField
    cases hkeep : is v (kglString "keep-alive") with
    | true =>
      have hup : is v (kglString "upgrade") = false :=
        not_is_of_is (by decide) (by decide) (by decide) hkeep
      simp [hup]
    | false =>
      cases is v (kglString "upgrade") with
      | true => simp
      | false => cases is v (kglString "close") <;> simp
  exact parse_flag hround s val

/-- `Cache-Control` forbids the cache where it contains `no-store` or `no-cache`. -/
theorem parseCacheControl_noCache (s : CacheControlFlags) (val : Bytes) :
    (parseCacheControl s val).noCache =
      (s.noCache || (contain val (kglString "no-store") || contain val (kglString "no-cache"))) := by
  have hround : ∀ s v, (cacheControlField s v).noCache =
      (s.noCache || (is v (kglString "no-store") || is v (kglString "no-cache"))) := by
    intro s v
    unfold cacheControlField
    cases is v (kglString "no-store") || is v (kglString "no-cache") with
    | true => simp
    | false => cases is v (kglString "only-if-cached") <;> simp
  unfold parseCacheControl parse contain
  rw [loop_eq, containLoop_eq, containLoop_eq, foldl_flag hround, any_either]

/-- `Cache-Control` asks for the cache alone where it contains `only-if-cached`. -/
theorem parseCacheControl_onlyIfCached (s : CacheControlFlags) (val : Bytes) :
    (parseCacheControl s val).onlyIfCached =
      (s.onlyIfCached || contain val (kglString "only-if-cached")) := by
  have hround : ∀ s v, (cacheControlField s v).onlyIfCached =
      (s.onlyIfCached || is v (kglString "only-if-cached")) := by
    intro s v
    unfold cacheControlField
    cases hstore : is v (kglString "no-store") || is v (kglString "no-cache") with
    | true =>
      have hnot : is v (kglString "only-if-cached") = false := by
        rcases Bool.or_eq_true_iff.mp hstore with h | h
        · exact not_is_of_is (by decide) (by decide) (by decide) h
        · exact not_is_of_is (by decide) (by decide) (by decide) h
      simp [hnot]
    | false => cases is v (kglString "only-if-cached") <;> simp
  exact parse_flag hround s val

/-- Whether the weight of a field lets its encoding be used. -/
def accepted (val : Bytes) : Bool :=
  let field := (getFieldEnd val).1
  getDoubleParam (kglString "q") 3 field.length field != some 0

/-- `Accept-Encoding` allows `br` where a field that begins with it has no weight of zero. -/
theorem parseAcceptEncoding_br (s : AcceptEncoding) (val : Bytes) :
    (parseAcceptEncoding s val).br =
      (s.br || (fields val.length val).any fun v => accepted v && is v (kglString "br")) := by
  have hround : ∀ s v, (acceptEncodingField s v).br =
      (s.br || (accepted v && is v (kglString "br"))) := by
    intro s v
    unfold acceptEncodingField accepted
    dsimp only
    split_ifs with hq hgzip hdeflate hcompress hbr hzstd hidentity
    · simp [hq]
    · simp [not_is_of_is (b := kglString "br") (by decide) (by decide) (by decide) hgzip]
    · simp [not_is_of_is (b := kglString "br") (by decide) (by decide) (by decide) hdeflate]
    · simp [not_is_of_is (b := kglString "br") (by decide) (by decide) (by decide) hcompress]
    · simp [hbr, hq]
    · simp [hbr]
    · simp [hbr]
    · simp [hbr]
  unfold parseAcceptEncoding parse init
  rw [loop_eq, foldl_flag hround]

theorem blank_nil : ([] : Bytes).all TokenList.isOws = true := rfl

theorem blank_space : ([32] : Bytes).all TokenList.isOws = true := rfl

theorem isToken_gzip : IsToken (kglString "gzip") := by decide

theorem isToken_br : IsToken (kglString "BR") := by decide

theorem params_end_weight : ∀ text ∈ some (kglString "q=0.5"), 44 ∉ text := by decide

theorem params_end_none : ∀ text ∈ (none : Option Bytes), 44 ∉ text := by decide

/-- A list with parameters and white space. -/
def encodings : List Element :=
  [⟨[], kglString "gzip", [], some (kglString "q=0.5"), blank_nil, isToken_gzip, blank_nil,
      params_end_weight⟩,
    ⟨[32], kglString "BR", [32], none, blank_space, isToken_br, blank_space, params_end_none⟩]

/-- White space hides the first element. -/
example : contain (kglString " gzip") (kglString "gzip") = false := by decide

end Khttpd
