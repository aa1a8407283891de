import Khttpd.Model.Proxy

/-!
# The PROXY protocol header is read whole

`ProxyHeader` is a header that is well formed. However the socket cuts a stream into pieces, the
reader takes a header from its front and not one byte behind it, or finds that there is none.
-/

set_option autoImplicit false

namespace Khttpd

/-! ## Headers -/

/-- A header with two addresses of one family; `tlvs` is what may stand behind them. -/
structure ProxyHeader where
  family : SockFamily
  src : Bytes
  dst : Bytes
  srcPort : Bytes
  dstPort : Bytes
  tlvs : Bytes
  length_src : src.length = family.size
  length_dst : dst.length = family.size
  length_srcPort : srcPort.length = 2
  length_dstPort : dstPort.length = 2
  room : proxyAddrSize family + tlvs.length ≤ 4096

namespace ProxyHeader

variable (h : ProxyHeader)

/-- What stands behind the fixed bytes. -/
def body : Bytes := h.src ++ h.dst ++ h.srcPort ++ h.dstPort ++ h.tlvs

/-- The fixed bytes. -/
def head : Bytes := kglProxyV2sig ++ [0x21, h.family.fam] ++ htons h.body.length

/-- The bytes of a header. -/
def encode : Bytes := h.head ++ h.body

/-- What a header says. -/
def protocol : KglProxyProtocol := ⟨⟨h.family, h.src, h.srcPort⟩, ⟨h.family, h.dst, h.dstPort⟩⟩

theorem length_body : h.body.length = proxyAddrSize h.family + h.tlvs.length := by
  simp only [body, List.length_append, h.length_src, h.length_dst, h.length_srcPort,
    h.length_dstPort, proxyAddrSize]
  omega

theorem length_head : h.head.length = proxyHdrSize := rfl

theorem length_body_le : h.body.length ≤ 4096 := h.length_body ▸ h.room

/-- The addresses are where `state_body` looks for them. -/
theorem proxyAddresses_body : proxyAddresses h.family h.body = h.protocol := by
  have hsrc := h.length_src
  have hdst := h.length_dst
  have hsrcPort := h.length_srcPort
  have hdstPort := h.length_dstPort
  have hbody : h.body = h.src ++ (h.dst ++ (h.srcPort ++ (h.dstPort ++ h.tlvs))) := by
    simp only [body, List.append_assoc]
  have h1 : h.body.drop h.family.size = h.dst ++ (h.srcPort ++ (h.dstPort ++ h.tlvs)) := by
    rw [hbody, List.drop_left' hsrc]
  have h2 : h.body.drop (2 * h.family.size) = h.srcPort ++ (h.dstPort ++ h.tlvs) := by
    rw [two_mul, ← List.drop_drop, h1, List.drop_left' hdst]
  have h3 : h.body.drop (2 * h.family.size + 2) = h.dstPort ++ h.tlvs := by
    rw [← List.drop_drop, h2, List.drop_left' hsrcPort]
  rw [proxyAddresses, h1, h2, h3, hbody, List.take_left' hsrc, List.take_left' hdst,
    List.take_left' hsrcPort, List.take_left' hdstPort, protocol]

end ProxyHeader

/-! ## The fixed bytes -/

namespace KglProxyHdrV2

/-- What `state_header` asks of the fixed bytes. -/
structure Accepted (hdr : KglProxyHdrV2) : Prop where
  sig : hdr.sig = kglProxyV2sig
  least : proxyAddrSize .inet ≤ hdr.len
  most : hdr.len ≤ 4096
  verCmd : hdr.verCmd = 0x21

theorem verCmd_iff (b : Byte) : b.toNat / 16 = 2 ∧ b.toNat % 16 = 1 ↔ b = 0x21 := by
  rw [← UInt8.toNat_inj]
  have hnum : (0x21 : Byte).toNat = 33 := rfl
  omega

/-- The fields of sixteen bytes. -/
theorem ofBytes_eq {sig : Bytes} (hsig : sig.length = 12) (a b c d : Byte) :
    ofBytes (sig ++ [a, b, c, d]) = ⟨sig, a, b, c.toNat * 2 ^ 8 + d.toNat⟩ := by
  have hget : ∀ i, (sig ++ [a, b, c, d]).getD (12 + i) 0 = [a, b, c, d].getD i 0 := fun i => by
    rw [List.getD_eq_getElem?_getD, List.getElem?_append_right (by omega), hsig,
      Nat.add_sub_cancel_left, ← List.getD_eq_getElem?_getD]
  have hdrop : (sig ++ [a, b, c, d]).drop 14 = [c, d] := by
    rw [show (14 : ℕ) = 12 + 2 from rfl, ← List.drop_drop, List.drop_left' hsig]
    rfl
  rw [ofBytes, List.take_left' hsig, hdrop]
  exact congrArg₂ (fun x y => (⟨sig, x, y, parseUint16 [c, d]⟩ : KglProxyHdrV2)) (hget 0) (hget 1)

/-- Sixteen bytes are their fields. -/
theorem eq_of_ofBytes {head : Bytes} (hhead : head.length = proxyHdrSize) :
    head = (ofBytes head).sig ++ [(ofBytes head).verCmd, (ofBytes head).fam] ++
      htons (ofBytes head).len := by
  have hsplit := (List.take_append_drop 12 head).symm
  have hsig : (head.take 12).length = 12 := by
    rw [List.length_take, hhead]
    rfl
  have htail : (head.drop 12).length = 4 := by
    rw [List.length_drop, hhead]
    rfl
  obtain ⟨a, b, c, d, habcd⟩ : ∃ a b c d, head.drop 12 = [a, b, c, d] := by
    generalize head.drop 12 = tail at htail
    rcases tail with _ | ⟨a, _ | ⟨b, _ | ⟨c, _ | ⟨d, _ | ⟨e, tail⟩⟩⟩⟩⟩ <;>
      simp only [List.length_cons, List.length_nil] at htail <;> try omega
    exact ⟨a, b, c, d, rfl⟩
  rw [habcd] at hsplit
  generalize head.take 12 = sig at hsplit hsig
  subst hsplit
  have hc : (c.toNat * 2 ^ 8 + d.toNat) / 2 ^ 8 = c.toNat := by
    have hd := d.toNat_lt
    omega
  have hd : UInt8.ofNat (c.toNat * 2 ^ 8 + d.toNat) = d := by
    rw [← UInt8.toNat_inj, UInt8.toNat_ofNat']
    have hd := d.toNat_lt
    omega
  rw [ofBytes_eq hsig, htons, hc, hd, UInt8.ofNat_toNat, List.append_assoc]
  rfl

end KglProxyHdrV2

open KglProxyHdrV2

/-- The fixed bytes of a header. -/
theorem ofBytes_head (h : ProxyHeader) :
    ofBytes h.head = ⟨kglProxyV2sig, 0x21, h.family.fam, h.body.length⟩ := by
  have hlen := h.length_body_le
  have hbytes : h.head = kglProxyV2sig ++ [0x21, h.family.fam,
      UInt8.ofNat (h.body.length / 2 ^ 8), UInt8.ofNat h.body.length] := rfl
  rw [hbytes, ofBytes_eq rfl, UInt8.toNat_ofNat', UInt8.toNat_ofNat']
  congr 1
  omega

theorem accepted_head (h : ProxyHeader) : (ofBytes h.head).Accepted := by
  rw [ofBytes_head]
  have hleast : proxyAddrSize .inet ≤ proxyAddrSize h.family := by cases h.family <;> decide
  refine ⟨rfl, ?_, h.length_body_le, rfl⟩
  exact (hleast.trans (Nat.le_add_right _ _)).trans_eq h.length_body.symm

/-- A stream that starts with a header starts with its fixed bytes. -/
theorem head_of_encode {h : ProxyHeader} {head tail rest : Bytes}
    (hwire : head ++ tail = h.encode ++ rest) (hhead : head.length = proxyHdrSize) :
    head = h.head ∧ tail = h.body ++ rest := by
  rw [ProxyHeader.encode, List.append_assoc] at hwire
  exact List.append_inj hwire (hhead.trans h.length_head.symm)

/-- A body that is long enough for its family makes a header. -/
theorem exists_header {head body : Bytes} {family : SockFamily}
    (hhead : head.length = proxyHdrSize) (haccepted : (ofBytes head).Accepted)
    (hfam : (ofBytes head).fam = family.fam) (hbody : body.length = (ofBytes head).len)
    (hsize : proxyAddrSize family ≤ (ofBytes head).len) :
    ∃ h : ProxyHeader, h.encode = head ++ body ∧ h.protocol = proxyAddresses family body := by
  have hmost := haccepted.most
  rw [← hbody] at hsize hmost
  have hroom : 2 * family.size + 4 ≤ body.length := hsize
  let h : ProxyHeader :=
    { family := family
      src := body.take family.size
      dst := (body.drop family.size).take family.size
      srcPort := (body.drop (2 * family.size)).take 2
      dstPort := (body.drop (2 * family.size + 2)).take 2
      tlvs := body.drop (2 * family.size + 4)
      length_src := by
        rw [List.length_take]
        omega
      length_dst := by
        rw [List.length_take, List.length_drop]
        omega
      length_srcPort := by
        rw [List.length_take, List.length_drop]
        omega
      length_dstPort := by
        rw [List.length_take, List.length_drop]
        omega
      room := by
        rw [List.length_drop, proxyAddrSize]
        omega }
  have hparts : h.body = body := by
    have h3 : (body.drop (2 * family.size + 2)).take 2 ++ body.drop (2 * family.size + 4) =
        body.drop (2 * family.size + 2) := by
      have hdrop : (body.drop (2 * family.size + 2)).drop 2 = body.drop (2 * family.size + 4) :=
        List.drop_drop
      rw [← hdrop, List.take_append_drop]
    have h2 : (body.drop (2 * family.size)).take 2 ++ body.drop (2 * family.size + 2) =
        body.drop (2 * family.size) := by
      rw [← List.drop_drop, List.take_append_drop]
    have h1 : (body.drop family.size).take family.size ++ body.drop (2 * family.size) =
        body.drop family.size := by
      rw [two_mul, ← List.drop_drop, List.take_append_drop]
    simp only [h, ProxyHeader.body, List.append_assoc]
    rw [h3, h2, h1, List.take_append_drop]
  refine ⟨h, ?_, rfl⟩
  have hbytes := eq_of_ofBytes hhead
  rw [haccepted.sig, haccepted.verCmd, hfam, ← hbody] at hbytes
  rw [ProxyHeader.encode, ProxyHeader.head, hparts, hbytes]

/-! ## The reader -/

namespace KRequestProxy

theorem stateHeader_accepted {r : KRequestProxy} (h : (ofBytes r.got).Accepted) :
    r.stateHeader = .read ⟨.body, ofBytes r.got, [], (ofBytes r.got).len⟩ := by
  obtain ⟨hver, hcmd⟩ := (verCmd_iff _).mpr h.verCmd
  have hmost := h.most
  have hleast := h.least
  unfold stateHeader
  dsimp only
  rw [if_neg (not_not.mpr h.sig), if_neg (by omega), if_neg (not_not.mpr hver),
    if_neg (not_not.mpr hcmd)]

theorem stateHeader_refused {r : KRequestProxy} (h : ¬(ofBytes r.got).Accepted) :
    r.stateHeader = .destroy := by
  unfold stateHeader
  dsimp only
  split
  · rfl
  · rename_i hsig
    split
    · rfl
    · rename_i hlen
      split
      · rfl
      · rename_i hver
        split
        · rfl
        · rename_i hcmd
          have hboth := (verCmd_iff _).mp ⟨not_not.mp hver, not_not.mp hcmd⟩
          exact absurd ⟨not_not.mp hsig, by omega, by omega, hboth⟩ h

/-- The addresses of a body are read, or there is no family that has room in it. -/
theorem stateBody_cases (r : KRequestProxy) :
    (∃ family : SockFamily, r.hdr.fam = family.fam ∧ proxyAddrSize family ≤ r.hdr.len ∧
      r.stateBody = .done (proxyAddresses family r.got)) ∨
    ((∀ family : SockFamily, r.hdr.fam = family.fam → r.hdr.len < proxyAddrSize family) ∧
      r.stateBody = .destroy) := by
  unfold stateBody
  split
  · rename_i hfam
    split
    · rename_i hshort
      refine Or.inr ⟨fun family hfamily => ?_, rfl⟩
      cases family with
      | inet => exact hshort
      | inet6 => exact absurd (hfam.symm.trans hfamily) (by decide)
    · rename_i hlong
      exact Or.inl ⟨.inet, hfam, Nat.le_of_not_lt hlong, rfl⟩
  · rename_i hother
    split
    · rename_i hfam
      split
      · rename_i hshort
        refine Or.inr ⟨fun family hfamily => ?_, rfl⟩
        cases family with
        | inet => exact absurd hfamily hother
        | inet6 => exact hshort
      · rename_i hlong
        exact Or.inl ⟨.inet6, hfam, Nat.le_of_not_lt hlong, rfl⟩
    · rename_i hother6
      refine Or.inr ⟨fun family hfamily => ?_, rfl⟩
      cases family with
      | inet => exact absurd hfamily hother
      | inet6 => exact absurd hfamily hother6

end KRequestProxy

namespace ProxyConn

/-- Where a reader is in a stream: in the fixed bytes, behind them, behind a header, or it found
that the stream does not start with one. -/
inductive Reads (wire : Bytes) : ProxyConn → Prop
  | header (r : KRequestProxy) (rest : Bytes) (hstate : r.stateHandle = .header)
      (hwire : wire = r.got ++ rest) (hroom : r.got.length + r.left = proxyHdrSize)
      (hleft : 0 < r.left) : Reads wire ⟨.read r, rest⟩
  | body (r : KRequestProxy) (head rest : Bytes) (hstate : r.stateHandle = .body)
      (hwire : wire = head ++ (r.got ++ rest)) (hhead : head.length = proxyHdrSize)
      (hhdr : r.hdr = ofBytes head) (haccepted : r.hdr.Accepted)
      (hroom : r.got.length + r.left = r.hdr.len) (hleft : 0 < r.left) : Reads wire ⟨.read r, rest⟩
  | done (h : ProxyHeader) (rest : Bytes) (hwire : wire = h.encode ++ rest) :
      Reads wire ⟨.done h.protocol, rest⟩
  | destroyed (rest : Bytes) (hwire : ∀ (h : ProxyHeader) (rest : Bytes),
      wire ≠ h.encode ++ rest) : Reads wire ⟨.destroy, rest⟩

variable {wire : Bytes} {c : ProxyConn}

theorem reads_start (wire : Bytes) : Reads wire ⟨.read .init, wire⟩ :=
  .header .init wire rfl rfl rfl (by decide)

/-- The fixed bytes have come. -/
theorem reads_stateHeader {r : KRequestProxy} {rest : Bytes} (hwire : wire = r.got ++ rest)
    (hroom : r.got.length = proxyHdrSize) : Reads wire ⟨r.stateHeader, rest⟩ := by
  by_cases haccepted : (ofBytes r.got).Accepted
  · rw [KRequestProxy.stateHeader_accepted haccepted]
    refine .body _ r.got rest rfl hwire hroom rfl haccepted (Nat.zero_add _) ?_
    exact Nat.lt_of_lt_of_le (by decide) haccepted.least
  · rw [KRequestProxy.stateHeader_refused haccepted]
    refine .destroyed rest fun h rest' heq => haccepted ?_
    rw [(head_of_encode (hwire.symm.trans heq) hroom).1]
    exact accepted_head h

/-- The body has come. -/
theorem reads_stateBody {r : KRequestProxy} {head rest : Bytes}
    (hwire : wire = head ++ (r.got ++ rest)) (hhead : head.length = proxyHdrSize)
    (hhdr : r.hdr = ofBytes head) (haccepted : r.hdr.Accepted)
    (hroom : r.got.length = r.hdr.len) : Reads wire ⟨r.stateBody, rest⟩ := by
  rcases r.stateBody_cases with ⟨family, hfam, hsize, heq⟩ | ⟨hshort, heq⟩
  · rw [hhdr] at hfam hsize haccepted hroom
    obtain ⟨h, hencode, hprotocol⟩ := exists_header hhead haccepted hfam hroom hsize
    rw [heq, ← hprotocol]
    refine .done h rest ?_
    rw [hencode, hwire, List.append_assoc]
  · rw [heq]
    refine .destroyed rest fun h rest' hencode => ?_
    obtain ⟨hsame, -⟩ := head_of_encode (hwire.symm.trans hencode) hhead
    have hfields := hhdr.trans ((congrArg ofBytes hsame).trans (ofBytes_head h))
    have hlt := hshort h.family (by rw [hfields])
    have hlength := h.length_body
    rw [hfields] at hlt
    simp only at hlt
    omega

/-- Nothing came any more. -/
theorem reads_end {r : KRequestProxy} (h : Reads wire ⟨.read r, []⟩) :
    ∀ (h : ProxyHeader) (rest : Bytes), wire ≠ h.encode ++ rest := by
  cases h with
  | header r rest hstate hwire hroom hleft =>
    intro h rest heq
    have hlength := congrArg List.length (hwire.symm.trans heq)
    simp only [ProxyHeader.encode, List.length_append, List.length_nil, h.length_head] at hlength
    omega
  | body r head rest hstate hwire hhead hhdr haccepted hroom hleft =>
    intro h rest heq
    obtain ⟨hsame, htail⟩ := head_of_encode (hwire.symm.trans heq) hhead
    have hfields := hhdr.trans ((congrArg ofBytes hsame).trans (ofBytes_head h))
    have hlength := congrArg List.length htail
    rw [hfields] at hroom
    simp only [List.length_append, List.length_nil] at hlength hroom
    omega

/-- A read keeps the place. -/
theorem Reads.step (h : Reads wire c) {size : ℕ} (hsize : 0 < size) : Reads wire (c.step size) := by
  -- what a read that is not empty brings, and that it leaves the rest
  have hbytes : ∀ (r : KRequestProxy) (rest : Bytes), 0 < r.left → rest ≠ [] →
      rest.take (min size r.left) ≠ [] ∧ (rest.take (min size r.left)).length ≤ r.left := by
    intro r rest hleft hne
    have hpos := List.length_pos_iff.mpr hne
    refine ⟨List.length_pos_iff.mp ?_, ?_⟩
    · rw [List.length_take]
      omega
    · rw [List.length_take]
      omega
  cases h with
  | header r rest hstate hwire hroom hleft =>
    by_cases hempty : rest = []
    · subst hempty
      have hend := reads_end (.header r [] hstate hwire hroom hleft)
      simp only [ProxyConn.step, KRequestProxy.state, List.take_nil, List.drop_nil, if_true]
      exact .destroyed [] hend
    · obtain ⟨hne, hle⟩ := hbytes r rest hleft hempty
      simp only [ProxyConn.step, KRequestProxy.state, if_neg hne, hstate]
      have hnext : wire =
          (r.got ++ rest.take (min size r.left)) ++ rest.drop (min size r.left) := by
        rw [List.append_assoc, List.take_append_drop, hwire]
      split
      · rename_i hmore
        refine .header _ _ rfl hnext ?_ hmore
        simp only [List.length_append]
        omega
      · rename_i hall
        refine reads_stateHeader hnext ?_
        simp only [List.length_append]
        omega
  | body r head rest hstate hwire hhead hhdr haccepted hroom hleft =>
    by_cases hempty : rest = []
    · subst hempty
      have hend := reads_end (.body r head [] hstate hwire hhead hhdr haccepted hroom hleft)
      simp only [ProxyConn.step, KRequestProxy.state, List.take_nil, List.drop_nil, if_true]
      exact .destroyed [] hend
    · obtain ⟨hne, hle⟩ := hbytes r rest hleft hempty
      simp only [ProxyConn.step, KRequestProxy.state, if_neg hne, hstate]
      have hnext : wire = head ++ ((r.got ++ rest.take (min size r.left)) ++
          rest.drop (min size r.left)) := by
        rw [List.append_assoc, List.take_append_drop, hwire]
      split
      · rename_i hmore
        refine .body _ head _ rfl hnext hhead hhdr haccepted ?_ hmore
        simp only [List.length_append]
        omega
      · rename_i hall
        refine reads_stateBody hnext hhead hhdr haccepted ?_
        simp only [List.length_append]
        omega
  | done h rest hwire => exact .done h rest hwire
  | destroyed rest hwire => exact .destroyed rest hwire

/-- A run keeps the place. -/
theorem Reads.run (h : Reads wire c) {sizes : List ℕ} (hsizes : ∀ size ∈ sizes, 0 < size) :
    Reads wire (sizes.foldl ProxyConn.step c) := by
  induction sizes generalizing c with
  | nil => exact h
  | cons size sizes ih =>
    exact ih (h.step (hsizes size List.mem_cons_self))
      fun size' hmem => hsizes size' (List.mem_cons_of_mem _ hmem)

/-- A reader that has ended reads no more. -/
theorem step_ended (hc : ∀ r, c.result ≠ .read r) (size : ℕ) : c.step size = c := by
  unfold ProxyConn.step
  split
  · rename_i r heq
    exact absurd heq (hc r)
  · rfl

theorem run_ended (hc : ∀ r, c.result ≠ .read r) (sizes : List ℕ) :
    sizes.foldl ProxyConn.step c = c := by
  induction sizes with
  | nil => rfl
  | cons size sizes ih => rw [List.foldl_cons, step_ended hc, ih]

/-- A reader that goes on has room for a byte. -/
theorem Reads.left_pos {r : KRequestProxy} {rest : Bytes} (h : Reads wire ⟨.read r, rest⟩) :
    0 < r.left := by
  cases h with
  | header _ _ _ _ _ hleft => exact hleft
  | body _ _ _ _ _ _ _ _ _ hleft => exact hleft

/-- A reader that goes on has taken a byte in every read. -/
theorem Reads.progress (h : Reads wire c) {sizes : List ℕ} (hsizes : ∀ size ∈ sizes, 0 < size)
    {r : KRequestProxy} (hread : (sizes.foldl ProxyConn.step c).result = .read r) :
    sizes.length ≤ c.wire.length := by
  induction sizes generalizing c with
  | nil => exact Nat.zero_le _
  | cons size sizes ih =>
    have hsize := hsizes size List.mem_cons_self
    have hnext : ∃ r', (c.step size).result = .read r' := by
      by_contra hended
      rw [List.foldl_cons, run_ended (not_exists.mp hended)] at hread
      exact hended ⟨r, hread⟩
    have hrest := ih (h.step hsize) (fun size' hmem => hsizes size' (List.mem_cons_of_mem _ hmem))
      hread
    obtain ⟨result, rest⟩ := c
    obtain ⟨r', hr'⟩ := hnext
    cases result with
    | read now =>
      have hleft := h.left_pos
      have hne : rest ≠ [] := by
        rintro rfl
        simp only [ProxyConn.step, KRequestProxy.state, List.take_nil, if_true, reduceCtorEq] at hr'
      have hpos := List.length_pos_iff.mpr hne
      simp only [ProxyConn.step, List.length_drop] at hrest
      rw [List.length_cons]
      dsimp only
      omega
    | done proxy => cases hr'
    | destroy => cases hr'

/-- A stream starts with one header only. -/
theorem encode_unique {h h' : ProxyHeader} {rest rest' : Bytes}
    (heq : h.encode ++ rest = h'.encode ++ rest') : h.protocol = h'.protocol ∧ rest = rest' := by
  obtain ⟨hhead, htail⟩ : h.head = h'.head ∧ h.body ++ rest = h'.body ++ rest' := by
    refine head_of_encode ?_ h.length_head
    rw [← heq, ProxyHeader.encode, List.append_assoc]
  have hfields := (ofBytes_head h).symm.trans ((congrArg ofBytes hhead).trans (ofBytes_head h'))
  simp only [KglProxyHdrV2.mk.injEq, true_and] at hfields
  obtain ⟨hfam, hlength⟩ := hfields
  have hfamily : h.family = h'.family := by
    cases hf : h.family <;> cases hf' : h'.family <;> rw [hf, hf'] at hfam <;>
      first | rfl | exact absurd hfam (by decide)
  obtain ⟨hbody, hrest⟩ := List.append_inj htail hlength
  refine ⟨?_, hrest⟩
  rw [← h.proxyAddresses_body, ← h'.proxyAddresses_body, hfamily, hbody]

/-- The reads of a stream with enough reads in it. -/
theorem reads_run (wire : Bytes) {sizes : List ℕ} (hsizes : ∀ size ∈ sizes, 0 < size)
    (henough : wire.length < sizes.length) :
    Reads wire (run wire sizes) ∧ ∀ r, (run wire sizes).result ≠ .read r := by
  have hstart := reads_start wire
  refine ⟨hstart.run hsizes, fun r hread => ?_⟩
  have hle := hstart.progress hsizes hread
  exact absurd henough (Nat.not_lt.mpr hle)

/-- A header in front of a stream is read, and what stands behind it is left. -/
theorem run_encode (h : ProxyHeader) (rest : Bytes) {sizes : List ℕ}
    (hsizes : ∀ size ∈ sizes, 0 < size) (henough : (h.encode ++ rest).length < sizes.length) :
    run (h.encode ++ rest) sizes = ⟨.done h.protocol, rest⟩ := by
  obtain ⟨hreads, hended⟩ := reads_run (h.encode ++ rest) hsizes henough
  generalize run (h.encode ++ rest) sizes = c at hreads hended
  cases hreads with
  | header r _ _ _ _ _ => exact absurd rfl (hended r)
  | body r _ _ _ _ _ _ _ _ _ => exact absurd rfl (hended r)
  | done h' rest' hwire =>
    obtain ⟨hprotocol, hrest⟩ := encode_unique hwire
    rw [hprotocol, hrest]
  | destroyed rest' hwire => exact absurd rfl (hwire h rest)

/-- However a stream is cut into reads, the reader ends; it is done exactly when the stream starts
with a header, with what the header says, and it leaves exactly what stands behind it. -/
theorem proxyHeader_run (wire : Bytes) (sizes : List ℕ) (hsizes : ∀ size ∈ sizes, 0 < size)
    (henough : wire.length < sizes.length) :
    (∀ proxy rest, run wire sizes = ⟨.done proxy, rest⟩ ↔
      ∃ h : ProxyHeader, wire = h.encode ++ rest ∧ proxy = h.protocol) ∧
      ∀ r, (run wire sizes).result ≠ .read r := by
  obtain ⟨hreads, hended⟩ := reads_run wire hsizes henough
  refine ⟨fun proxy rest => ⟨fun heq => ?_, ?_⟩, hended⟩
  · rw [heq] at hreads
    cases hreads with
    | done h rest hwire => exact ⟨h, hwire, rfl⟩
  · rintro ⟨h, rfl, rfl⟩
    exact run_encode h rest hsizes henough

/-- The result at a header with a TLV that comes in pieces. -/
theorem proxyHeader_run_pieces :
    run (kglProxyV2sig ++ [0x21, 1, 0, 15, 10, 0, 0, 1, 10, 0, 0, 2, 0, 80, 1, 187, 4, 0, 0] ++
        [71, 69, 84]) ([5, 1, 30, 2] ++ List.replicate 33 9) =
      ⟨.done ⟨⟨.inet, [10, 0, 0, 1], [0, 80]⟩, ⟨.inet, [10, 0, 0, 2], [1, 187]⟩⟩, [71, 69, 84]⟩ ∧
      ∃ h : ProxyHeader, kglProxyV2sig ++
        [0x21, 1, 0, 15, 10, 0, 0, 1, 10, 0, 0, 2, 0, 80, 1, 187, 4, 0, 0] ++ [71, 69, 84] =
          h.encode ++ [71, 69, 84] ∧
        (⟨⟨.inet, [10, 0, 0, 1], [0, 80]⟩, ⟨.inet, [10, 0, 0, 2], [1, 187]⟩⟩ : KglProxyProtocol) =
          h.protocol :=
  ⟨by decide +kernel, ((proxyHeader_run _ ([5, 1, 30, 2] ++ List.replicate 33 9)
    (by decide) (by decide)).1 _ _).mp (by decide +kernel)⟩

/-- The header that `build_proxy_header` makes. -/
def built (family : SockFamily) (ia : IpAddr) : ProxyHeader where
  family := family
  src := ia.addr8.take family.size
  dst := List.replicate family.size 0
  srcPort := [0, 0]
  dstPort := [0, 0]
  tlvs := []
  length_src := by
    rw [List.length_take, ia.length_addr8]
    cases family <;> rfl
  length_dst := List.length_replicate
  length_srcPort := rfl
  length_dstPort := rfl
  room := by cases family <;> decide

theorem buildProxyHeader_eq {ksocketGetIpaddr : Bytes → Option IpAddr} {ip header : Bytes}
    (hbuild : buildProxyHeader ksocketGetIpaddr ip = some header) :
    ∃ ia family, ksocketGetIpaddr ip = some ia ∧ ia.sinFamily = some family ∧
      header = (built family ia).encode := by
  unfold buildProxyHeader at hbuild
  split at hbuild
  · cases hbuild
  · rename_i ia hia
    split at hbuild
    · cases hbuild
    · rename_i family hfamily
      refine ⟨ia, family, hia, hfamily, (Option.some.inj hbuild).symm.trans ?_⟩
      have hlength : (built family ia).body.length = proxyAddrSize family :=
        (built family ia).length_body
      have hzeros : List.replicate (proxyAddrSize family - family.size) (0 : Byte) =
          List.replicate family.size 0 ++ [0, 0] ++ [0, 0] ++ [] := by
        cases family <;> rfl
      have hcut : proxyAddrSize family % 2 ^ 16 = proxyAddrSize family := by
        cases family <;> rfl
      rw [hcut, hzeros, ProxyHeader.encode, ProxyHeader.head, hlength]
      simp only [built, ProxyHeader.body, List.append_assoc]
      rfl

/-- What `build_proxy_header` makes of an address is read back as the source of the connection,
however it comes and whatever comes behind it. -/
theorem buildProxyHeader_run (ksocketGetIpaddr : Bytes → Option IpAddr) (ip header rest : Bytes)
    (hbuild : buildProxyHeader ksocketGetIpaddr ip = some header) (sizes : List ℕ)
    (hsizes : ∀ size ∈ sizes, 0 < size) (henough : (header ++ rest).length < sizes.length) :
    ∃ ia family, ksocketGetIpaddr ip = some ia ∧ ia.sinFamily = some family ∧
      run (header ++ rest) sizes =
        ⟨.done ⟨⟨family, ia.addr8.take family.size, [0, 0]⟩,
          ⟨family, List.replicate family.size 0, [0, 0]⟩⟩, rest⟩ := by
  obtain ⟨ia, family, hia, hfamily, rfl⟩ := buildProxyHeader_eq hbuild
  exact ⟨ia, family, hia, hfamily, run_encode (built family ia) rest hsizes henough⟩

/-- An address as `ksocket_get_ipaddr` reads it. -/
def loopback (ip : Bytes) : Option IpAddr :=
  if ip = kglString "127.0.0.1" then
    some ⟨some .inet, [127, 0, 0, 1] ++ List.replicate 12 0, rfl⟩
  else none

/-- The result at an address. -/
theorem buildProxyHeader_run_loopback :
    (buildProxyHeader loopback (kglString "127.0.0.1") =
      some (kglProxyV2sig ++ [0x21, 1, 0, 12, 127, 0, 0, 1, 0, 0, 0, 0, 0, 0, 0, 0])) ∧
      ∃ ia family, loopback (kglString "127.0.0.1") = some ia ∧ ia.sinFamily = some family ∧
        run (kglProxyV2sig ++ [0x21, 1, 0, 12, 127, 0, 0, 1, 0, 0, 0, 0, 0, 0, 0, 0] ++ [71])
            (List.replicate 30 7) =
          ⟨.done ⟨⟨family, ia.addr8.take family.size, [0, 0]⟩,
            ⟨family, List.replicate family.size 0, [0, 0]⟩⟩, [71]⟩ :=
  ⟨by decide +kernel, buildProxyHeader_run loopback _ _ _ (by decide +kernel) _ (by decide)
    (by decide)⟩

end ProxyConn

end Khttpd
