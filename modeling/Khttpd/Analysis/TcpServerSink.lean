import Khttpd.Analysis.Http3Sink
import Khttpd.Analysis.Specs
import Khttpd.Model.TcpServerSink

/-!
# What `write_buf` sends and counts

Whatever the socket does, a first part of the data is sent, and what is not sent is counted. The
count is an `int`, so it is right as long as everything that is to be sent can be counted in it.
-/

set_option autoImplicit false

namespace Khttpd

/-- A transport that writes a first part of the vectors, returns its length and leaves no vector
only if it wrote them all. -/
structure Writev.Faithful (writev : Writev) : Prop where
  part : ∀ call iovecs, (writev call iovecs).written <+: iovecs.flatten
  count : ∀ call iovecs, (writev call iovecs).got = (writev call iovecs).written.length
  all : ∀ call iovecs, (writev call iovecs).bc = 0 → (writev call iovecs).written = iovecs.flatten

/-- A first part of the data was sent, and the result counts the rest. -/
structure SentAndCounted (data : Bytes) (r : Bytes × ℤ) : Prop where
  part : r.1 <+: data
  rest : r.2 = data.length - r.1.length
  done : r.2 = 0 ↔ r.1 = data

/-- The count of the rest says when there is none. -/
theorem SentAndCounted.of_rest {data : Bytes} {r : Bytes × ℤ} (hpart : r.1 <+: data)
    (hrest : r.2 = data.length - r.1.length) : SentAndCounted data r where
  part := hpart
  rest := hrest
  done := by
    have hle := hpart.length_le
    rw [hrest]
    constructor
    · intro hzero
      exact hpart.eq_of_length (by omega)
    · intro hall
      rw [hall]
      omega

/-- A batch that uses up `length` has the bytes that are asked for. -/
theorem KHttp3Sink.Prepared.last {slots : ℕ} {buf iovecBuf rest : List Bytes} {length : ℤ}
    (h : Prepared slots buf length iovecBuf 0 rest) :
    iovecBuf.flatten = buf.flatten.take length.toNat := by
  have hbytes := h.bytes
  have htaken := h.taken
  have hlen := congrArg List.length hbytes
  rw [List.length_take] at hlen
  have hsplit : buf.flatten = (buf.take slots).flatten ++ (buf.drop slots).flatten := by
    rw [← List.flatten_append, List.take_append_drop]
  rw [hsplit, List.take_append_of_le_length (by omega)]
  exact hbytes

/-- A batch that does not use it up has the first buffers, and the next ones have the rest. -/
theorem KHttp3Sink.Prepared.behind {slots : ℕ} {buf iovecBuf rest : List Bytes} {length left : ℤ}
    (h : Prepared slots buf length iovecBuf left rest) (hleft : 0 < left) :
    iovecBuf.flatten ++ rest.flatten.take left.toNat = buf.flatten.take length.toNat := by
  have htaken := h.taken
  obtain ⟨hrest, hiovec⟩ := h.more hleft
  have hsplit : buf.flatten = iovecBuf.flatten ++ rest.flatten := by
    rw [hrest, hiovec, ← List.flatten_append, List.take_append_drop]
  have hlen : iovecBuf.flatten.length ≤ length.toNat := by omega
  have hsub : left.toNat = length.toNat - iovecBuf.flatten.length := by omega
  rw [hsplit, List.take_append, List.take_of_length_le hlen, hsub]

/-- The bytes that `write_buf` is to send. -/
def outgoing (buf : List Bytes) (length : ℤ) (suffix : Option Bytes) : Bytes :=
  buf.flatten.take length.toNat ++ suffix.getD []

/-- Counting off what went out does not overflow. -/
theorem toInt32_sub {length got : ℤ} (hgot : 0 ≤ got) (hle : got ≤ length)
    (hmax : length < 2 ^ 31) :
    toInt32 (length - toInt32 got) = length - got := by
  have hrest : toInt32 (length - got) = length - got := toInt32_of_range (by omega) (by omega)
  have hsame : toInt32 got = got := toInt32_of_range (by omega) (by omega)
  rw [hsame, hrest]

/-- The loop ends where nothing is left of the chain. -/
theorem writeBufLoop_done (writev : Writev) (suffix : Option Bytes) (fuel call : ℕ)
    (buf : List Bytes)
    (length : ℤ) : writeBufLoop writev suffix fuel call buf 0 length = some ([], length) := by
  cases fuel with
  | zero => rfl
  | succ fuel => exact if_neg (Int.lt_irrefl 0)

/-- The vectors of a batch, the last of which has the suffix behind the data. -/
theorem batch_spec {buf iovecBuf rest : List Bytes} {length left : ℤ} (suffix : Option Bytes)
    (h : KHttp3Sink.Prepared (rqWriteBufCount - 1) buf length iovecBuf left rest)
      (hleft : 0 ≤ left) :
    (if left = 0 then iovecBuf ++ suffix.toList else iovecBuf).flatten ++
        (if left = 0 then [] else outgoing rest left suffix) = outgoing buf length suffix := by
  unfold outgoing
  by_cases hzero : left = 0
  · subst hzero
    rw [if_pos rfl, if_pos rfl, List.flatten_append, h.last, List.append_nil]
    cases suffix with
    | none => rfl
    | some data => rw [Option.toList_some, List.flatten_singleton, Option.getD_some]
  · rw [if_neg hzero, if_neg hzero, ← List.append_assoc, h.behind (by omega)]

/-- Whatever the transport does, a first part is sent and the rest is counted, when the count starts
at the length of what is to be sent and fits an `int`. -/
theorem writeBufLoop_spec {writev : Writev} (hwritev : writev.Faithful) (suffix : Option Bytes)
    (fuel : ℕ) : ∀ (call : ℕ) (buf : List Bytes) (bufLength length : ℤ), buf.length ≤ fuel →
      0 < bufLength → bufLength ≤ buf.flatten.length →
      length = (outgoing buf bufLength suffix).length → length < 2 ^ 31 →
      ∃ r, writeBufLoop writev suffix fuel call buf bufLength length = some r ∧
        SentAndCounted (outgoing buf bufLength suffix) r := by
  induction fuel with
  | zero =>
    intro call buf bufLength length hfuel hpos hholds
    have hnil : buf = [] := List.length_eq_zero_iff.mp (Nat.le_zero.mp hfuel)
    rw [hnil, List.flatten_nil, List.length_nil] at hholds
    omega
  | succ fuel ih =>
    intro call buf bufLength length hfuel hpos hholds hlength hmax
    obtain ⟨iovecBuf, left, rest, hprep, hprepared⟩ :=
      KHttp3Sink.prepareLoop_spec (rqWriteBufCount - 1) buf bufLength hpos.le hholds
    have hleft : 0 ≤ left := by
      have htaken := hprepared.taken
      have hlen := congrArg List.length hprepared.bytes
      rw [List.length_take] at hlen
      omega
    have hbatch := batch_spec suffix hprepared hleft
    unfold writeBufLoop
    rw [if_pos hpos, hprep, Option.bind_some]
    dsimp only
    generalize hvectors : (if left = 0 then iovecBuf ++ suffix.toList else iovecBuf) = vectors
    rw [hvectors] at hbatch
    have hpart := hwritev.part call vectors
    have hcount := hwritev.count call vectors
    have hall := hwritev.all call vectors
    generalize writev call vectors = r at hpart hcount hall
    have hwhole := congrArg List.length hbatch
    rw [List.length_append] at hwhole
    have hle := hpart.length_le
    rw [hcount, toInt32_sub (by omega) (by omega) hmax]
    by_cases hbc : 0 < r.bc
    · rw [if_pos hbc]
      refine ⟨_, rfl, .of_rest (hpart.trans ⟨_, hbatch⟩) ?_⟩
      rw [hlength]
    · rw [if_neg hbc]
      have hwritten := hall (Nat.eq_zero_of_not_pos hbc)
      by_cases hzero : left = 0
      · rw [if_pos hzero, List.append_nil, ← hwritten] at hbatch
        rw [hzero, writeBufLoop_done]
        refine ⟨_, rfl, .of_rest ?_ ?_⟩
        · exact ⟨[], (List.append_nil _).trans ((List.append_nil _).trans hbatch)⟩
        · dsimp only
          rw [List.append_nil, hlength]
      · rw [if_neg hzero, ← hwritten] at hbatch
        have hbehind := hprepared.more (by omega)
        have hfewer : rest.length ≤ fuel := by
          have hne : buf ≠ [] := by
            rintro rfl
            rw [List.flatten_nil, List.length_nil] at hholds
            omega
          have hbuf := List.length_pos_of_ne_nil hne
          rw [hbehind.1, List.length_drop, rqWriteBufCount]
          omega
        have hnext : length - r.written.length = (outgoing rest left suffix).length := by
          rw [hlength, ← hbatch, List.length_append]
          omega
        obtain ⟨next, heq, hspec⟩ := ih (call + 1) rest left (length - r.written.length) hfewer
          (by omega) hprepared.enough hnext (by omega)
        rw [heq]
        refine ⟨_, rfl, .of_rest ?_ ?_⟩
        · rw [← hbatch]
          exact (List.prefix_append_right_inj _).mpr hspec.part
        · rw [hspec.rest, ← hbatch, List.length_append, List.length_append]
          omega

/-- A transport that fails at once. -/
def Writev.refuse : Writev := fun _ iovecs => ⟨[], 0, iovecs.length⟩

theorem Writev.refuse_faithful : Writev.refuse.Faithful where
  part := fun _ iovecs => List.nil_prefix
  count := fun _ _ => rfl
  all := by
    intro _ iovecs h
    rw [List.length_eq_zero_iff.mp h]
    rfl

/-- Where nothing goes out, nothing is counted off. -/
theorem writeBuf_refuse {buf : List Bytes} {length : ℤ} (hpos : 0 < length)
    (hholds : length ≤ buf.flatten.length) (suffix : Option Bytes) :
    ∃ n, writeBuf .refuse buf length suffix = some ([], toInt32 n) := by
  cases buf with
  | nil =>
    rw [List.flatten_nil, List.length_nil] at hholds
    omega
  | cons data next =>
    obtain ⟨iovecBuf, left, rest, hprep, hprepared⟩ :=
      KHttp3Sink.prepareLoop_spec (rqWriteBufCount - 1) (data :: next) length hpos.le hholds
    have hne : iovecBuf ≠ [] := hprepared.ne_nil (by decide) hpos
    have hbc : 0 < (if left = 0 then iovecBuf ++ suffix.toList else iovecBuf).length := by
      apply List.length_pos_of_ne_nil
      split
      · exact List.append_ne_nil_of_left_ne_nil hne _
      · exact hne
    unfold writeBuf
    rw [List.length_cons, writeBufLoop, if_pos hpos, hprep, Option.bind_some]
    exact ⟨_, if_pos hbc⟩

theorem length_outgoing {buf : List Bytes} {length : ℤ} (hpos : 0 < length)
    (hholds : length ≤ buf.flatten.length) (suffix : Option Bytes) :
    ((outgoing buf length suffix).length : ℤ) = length + (suffix.getD []).length := by
  unfold outgoing
  rw [List.length_append, List.length_take]
  omega

/-- What cannot be counted in an `int` is counted wrong where nothing goes out. -/
theorem refuse_not_counted {buf : List Bytes} {length : ℤ} (hpos : 0 < length)
    (hholds : length ≤ buf.flatten.length) {suffix : Option Bytes}
    (hlarge : 2 ^ 31 ≤ length + (suffix.getD []).length) :
    ∃ r, writeBuf .refuse buf length suffix = some r ∧
      ¬SentAndCounted (outgoing buf length suffix) r := by
  obtain ⟨n, hn⟩ := writeBuf_refuse hpos hholds suffix
  refine ⟨_, hn, ?_⟩
  intro h
  have hrest := h.rest
  rw [length_outgoing hpos hholds, List.length_nil] at hrest
  have hlt : toInt32 n < 2 ^ 31 := by
    have hbmod := Int.bmod_lt (x := n) (m := 2 ^ 32) (by decide)
    unfold toInt32
    omega
  omega

/-- `write_buf` sends a first part and counts the rest, whatever the transport does, exactly when
the whole of it can be counted in an `int`. -/
theorem writeBuf_sentAndCounted_iff {buf : List Bytes} {length : ℤ} (hpos : 0 < length)
    (hmax : length < 2 ^ 31) (hholds : length ≤ buf.flatten.length) (suffix : Option Bytes) :
    (∀ writev : Writev, writev.Faithful → ∃ r, writeBuf writev buf length suffix = some r ∧
        SentAndCounted (outgoing buf length suffix) r) ↔
      length + (suffix.getD []).length < 2 ^ 31 := by
  have hwhole := length_outgoing hpos hholds suffix
  constructor
  · intro h
    by_contra hlarge
    obtain ⟨r, hr, hspec⟩ := h .refuse Writev.refuse_faithful
    obtain ⟨r', hr', hnot⟩ := refuse_not_counted hpos hholds (Int.not_lt.mp hlarge)
    obtain rfl := Option.some_inj.mp (hr.symm.trans hr')
    exact hnot hspec
  · intro hfits writev hwritev
    have hstart : (suffix.elim length fun data => toInt32 (length + toInt32 data.length)) =
        (outgoing buf length suffix).length := by
      rw [hwhole]
      cases suffix with
      | none => exact (Int.add_zero length).symm
      | some data =>
        rw [Option.getD_some] at hfits ⊢
        have hsame : toInt32 (data.length : ℤ) = data.length :=
          toInt32_of_range (by omega) (by omega)
        rw [Option.elim_some, hsame]
        exact toInt32_of_range (by omega) (by omega)
    rw [← hwhole, ← hstart] at hfits
    exact writeBufLoop_spec hwritev suffix buf.length 0 buf length _ le_rfl hpos hholds hstart hfits

/-- A transport that writes everything. -/
def Writev.full : Writev := fun _ iovecs => ⟨iovecs.flatten, iovecs.flatten.length, 0⟩

theorem Writev.full_faithful : Writev.full.Faithful where
  part := fun _ _ => List.prefix_rfl
  count := fun _ _ => rfl
  all := fun _ _ _ => rfl

/-- Three bytes in two buffers and a line end all go out. -/
theorem writeBuf_sentAndCounted_line :
    ∃ r, writeBuf .full [[97, 98], [99]] 3 (some [13, 10]) = some r ∧
      SentAndCounted (outgoing [[97, 98], [99]] 3 (some [13, 10])) r :=
  (writeBuf_sentAndCounted_iff (by decide) (by decide) (by decide) _).mpr (by decide) _
    Writev.full_faithful

/-- A chunk of `2 ^ 31 - 1` bytes and its line end are more than an `int` can count. -/
theorem largeChunk_not_counted :
    Writev.refuse.Faithful ∧
      ∃ r, writeBuf .refuse [List.replicate (2 ^ 31 - 1) 0] (2 ^ 31 - 1) (some [13, 10]) = some r ∧
        ¬SentAndCounted
          (outgoing [List.replicate (2 ^ 31 - 1) 0] (2 ^ 31 - 1) (some [13, 10])) r := by
  have hlength : [List.replicate (2 ^ 31 - 1) (0 : Byte)].flatten.length = 2 ^ 31 - 1 := by
    rw [List.flatten_singleton, List.length_replicate]
  refine ⟨Writev.refuse_faithful, refuse_not_counted (by decide) ?_ (by decide)⟩
  rw [hlength]
  decide

end Khttpd
