import SecureKit.Base.Outcome
import SecureKit.Base.ByteString

/-!
# Unformatted C++ stream input and output

The part of `<istream>` and `<ostream>` that byte-oriented code uses, with the state flags that
decide how such code classifies a short read: `istream::read` with its `gcount`,
`istream::peek`, `ostream::write`, and the queries `good`, `eof`, `fail` and `bad`.  Streams
that throw on state changes (`exceptions()`) are not modelled.

## Sources

What a stream buffer still has to deliver is a `Source`: finitely many bytes that end in the
end of file or in a fault (the buffer throws, for instance on a read error), or an endless
supply.  `Source.ahead n` are the next `n` bytes, fewer where the source ends before, and
`Source.skip n` is the source behind them; everything a read does is said with these two.

## Flags

An unformatted input function first builds a sentry: where the stream is not good it sets
`failbit` and extracts nothing.  A read that meets the end of file early sets `eofbit` and
`failbit`, a fault sets `badbit` alone, and then no characters are counted, as `sgetn` never
returned.  All flags are sticky; nothing here clears one.
-/

namespace Iostream

open ByteString Effect

variable {ε : Type}

/-! ## Stream state -/

/-- `std::ios_base::iostate`. -/
structure IoState where
  eofbit : Bool := false
  failbit : Bool := false
  badbit : Bool := false
  deriving DecidableEq

namespace IoState

/-- `stream.good()`. -/
def good (s : IoState) : Bool := !s.eofbit && !s.failbit && !s.badbit

/-- `stream.fail()`, which is also `!stream`. -/
def fail (s : IoState) : Bool := s.failbit || s.badbit

lemma eq_of_good {s : IoState} (h : s.good = true) : s = {} := by
  obtain ⟨e, f, b⟩ := s
  simp only [good, Bool.and_eq_true, Bool.not_eq_true'] at h
  obtain ⟨⟨rfl, rfl⟩, rfl⟩ := h
  rfl

@[simp] lemma good_default : ({} : IoState).good = true := rfl

end IoState

/-! ## Sources -/

/-- How a finite source ends. -/
inductive Ending
  /-- In the end of file. -/
  | eof
  /-- The stream buffer throws. -/
  | fault
  deriving DecidableEq

/-- What a stream buffer still delivers. -/
inductive Source
  | finite (bytes : Bytes) (ending : Ending)
  | endless (byteAt : ℕ → UInt8)

namespace Source

/-- The next `n` bytes, or all that are left. -/
def ahead (n : ℕ) : Source → Bytes
  | finite bytes _ => bytes.take n
  | endless byteAt => (List.range n).map byteAt

/-- The source behind its next `n` bytes. -/
def skip (n : ℕ) : Source → Source
  | finite bytes ending => finite (bytes.drop n) ending
  | endless byteAt => endless fun i => byteAt (n + i)

/-- Reading to its end makes the stream buffer throw. -/
def faults : Source → Bool
  | finite _ .fault => true
  | _ => false

/-- At least `n` bytes are left. -/
def Has (s : Source) (n : ℕ) : Prop := (s.ahead n).length = n

instance (s : Source) (n : ℕ) : Decidable (s.Has n) := inferInstanceAs (Decidable (_ = _))

lemma length_ahead_le (s : Source) (n : ℕ) : (s.ahead n).length ≤ n := by
  cases s <;> simp [ahead]

@[simp] lemma faults_skip (s : Source) (n : ℕ) : (s.skip n).faults = s.faults := by
  cases s with
  | finite bytes ending => cases ending <;> rfl
  | endless byteAt => rfl

lemma skip_skip (s : Source) (a b : ℕ) : (s.skip a).skip b = s.skip (a + b) := by
  cases s with
  | finite bytes ending => simp [skip]
  | endless byteAt => simp [skip, Nat.add_assoc]

@[simp] lemma skip_zero (s : Source) : s.skip 0 = s := by
  cases s <;> simp [skip]

lemma ahead_skip (s : Source) (a b : ℕ) : (s.skip a).ahead b = (s.ahead (a + b)).drop a := by
  cases s with
  | finite bytes ending => simp [skip, ahead, List.drop_take]
  | endless byteAt =>
    simp only [skip, ahead]
    rw [← List.map_drop, List.range_eq_range', List.range_eq_range', List.drop_range',
      Nat.add_sub_cancel_left, Nat.zero_add, Nat.mul_one, List.range'_eq_map_range,
      List.range'_eq_map_range, List.map_map, List.map_map]
    simp [Function.comp_def]

lemma ahead_append (s : Source) (a b : ℕ) (h : s.Has a) :
    s.ahead (a + b) = s.ahead a ++ (s.skip a).ahead b := by
  have htake : (s.ahead (a + b)).take a = s.ahead a := by
    cases s with
    | finite bytes ending => simp [ahead, List.take_take]
    | endless byteAt =>
      simp only [ahead]
      rw [← List.map_take, List.take_range, Nat.min_eq_left (Nat.le_add_right a b)]
  rw [ahead_skip, ← htake, List.take_append_drop]

lemma Has.mono {s : Source} {a b : ℕ} (h : s.Has b) (hab : a ≤ b) : s.Has a := by
  cases s with
  | finite bytes ending =>
    simp only [Has, ahead, List.length_take] at h ⊢
    omega
  | endless byteAt => simp [Has, ahead]

lemma has_skip {s : Source} {a b : ℕ} (h : s.Has (a + b)) : (s.skip a).Has b := by
  rw [Has, ahead_skip, List.length_drop, h, Nat.add_sub_cancel_left]

/-- A source that runs out within `n` bytes is finite. -/
lemma exists_finite_of_not_has {s : Source} {n : ℕ} (h : ¬ s.Has n) :
    ∃ bytes ending, s = finite bytes ending ∧ bytes.length < n := by
  cases s with
  | finite bytes ending =>
    refine ⟨bytes, ending, rfl, ?_⟩
    simp only [Has, ahead, List.length_take] at h
    omega
  | endless byteAt => exact absurd (by simp [Has, ahead]) h

/-- A source that runs out within `n` bytes and does not fault ends in the end of file. -/
lemma exists_eof_of_not_has {s : Source} {n : ℕ} (h : ¬ s.Has n) (hf : s.faults = false) :
    ∃ bytes, s = finite bytes .eof ∧ bytes.length < n := by
  obtain ⟨bytes, ending, rfl, hlen⟩ := exists_finite_of_not_has h
  cases ending with
  | eof => exact ⟨bytes, rfl, hlen⟩
  | fault => cases hf

lemma Has.add {s : Source} {a b : ℕ} (ha : s.Has a) (hb : (s.skip a).Has b) : s.Has (a + b) := by
  rw [Has, ahead_append s a b ha, List.length_append, ha, hb]

/-- A source with a finite rest is finite. -/
lemma eq_finite_of_skip {s : Source} {n : ℕ} {bytes : Bytes} {ending : Ending}
    (h : s.skip n = finite bytes ending) : ∃ all, s = finite all ending := by
  cases s with
  | finite all ending' =>
    cases h
    exact ⟨all, rfl⟩
  | endless byteAt => cases h

/-- The source goes on with `bytes`. -/
def StartsWith (s : Source) (bytes : Bytes) : Prop := s.ahead bytes.length = bytes

lemma StartsWith.has {s : Source} {bytes : Bytes} (h : s.StartsWith bytes) :
    s.Has bytes.length := by
  rw [Has, h]

lemma startsWith_ahead {s : Source} {n : ℕ} (h : s.Has n) : s.StartsWith (s.ahead n) := by
  rw [StartsWith, h]

@[simp] lemma startsWith_nil (s : Source) : s.StartsWith [] := by
  cases s <;> simp [StartsWith, ahead]

/-- A source goes on with a concatenation exactly if it goes on with its parts in turn. -/
lemma startsWith_append {s : Source} {front back : Bytes} :
    s.StartsWith (front ++ back) ↔
      s.StartsWith front ∧ (s.skip front.length).StartsWith back := by
  constructor
  · intro h
    have hhas : s.Has front.length := h.has.mono (by simp)
    rw [StartsWith, List.length_append, ahead_append s _ _ hhas] at h
    exact List.append_inj h hhas
  · rintro ⟨hfront, hback⟩
    rw [StartsWith, List.length_append, ahead_append s _ _ hfront.has, hfront, hback]

lemma startsWith_finite {bytes front : Bytes} {ending : Ending} :
    (finite bytes ending).StartsWith front ↔ front <+: bytes := by
  rw [StartsWith, ahead, List.prefix_iff_eq_take]
  exact eq_comm

/-- A source goes on in only one way. -/
lemma StartsWith.unique {s : Source} {a b : Bytes} (ha : s.StartsWith a) (hb : s.StartsWith b)
    (h : a.length = b.length) : a = b := by
  rw [← ha, ← hb, h]

lemma startsWith_self (bytes : Bytes) (ending : Ending) :
    (finite bytes ending).StartsWith bytes :=
  startsWith_finite.mpr (List.prefix_refl bytes)

@[simp] lemma skip_finite_append (front back : Bytes) (ending : Ending) :
    (finite (front ++ back) ending).skip front.length = finite back ending := by
  simp [skip]

@[simp] lemma has_finite (bytes : Bytes) (ending : Ending) (n : ℕ) :
    (finite bytes ending).Has n ↔ n ≤ bytes.length := by
  simp [Has, ahead]

end Source

/-! ## Input streams -/

/-- `std::istream`. -/
structure IStream where
  source : Source
  state : IoState := {}

namespace IStream

/-- A good stream that delivers exactly `bytes`. -/
def ofBytes (bytes : Bytes) : IStream := { source := .finite bytes .eof }

/-- `in.read(buffer, n)`: the characters stored in the buffer, of which `gcount` is the number,
and the stream left behind. -/
def read (n : ℕ) (s : IStream) : Bytes × IStream :=
  if s.state.good then
    if s.source.Has n then
      (s.source.ahead n, { s with source := s.source.skip n })
    else if s.source.faults then
      ([], { source := s.source.skip n, state := { s.state with badbit := true } })
    else
      (s.source.ahead n,
        { source := s.source.skip n, state := { s.state with eofbit := true, failbit := true } })
  else ([], { s with state := { s.state with failbit := true } })

/-- `in.peek()`, with `none` for `traits::eof()`. -/
def peek (s : IStream) : Option UInt8 × IStream :=
  if s.state.good then
    match s.source.ahead 1 with
    | b :: _ => (some b, s)
    | [] =>
      if s.source.faults then (none, { s with state := { s.state with badbit := true } })
      else (none, { s with state := { s.state with eofbit := true } })
  else (none, { s with state := { s.state with failbit := true } })

/-- `in.read(buffer, n)` as a statement. -/
def readBytes (n : ℕ) : EStateM ε IStream Bytes := modifyGet (read n)

/-- `in.peek()` as an expression with a side effect. -/
def peekByte : EStateM ε IStream (Option UInt8) := modifyGet peek

/-- The flags of the stream. -/
def flags : EStateM ε IStream IoState := do return (← get).state

section Reading

variable {s : IStream} {n : ℕ}

lemma read_of_has (hgood : s.state.good = true) (h : s.source.Has n) :
    s.read n = (s.source.ahead n, { s with source := s.source.skip n }) := by
  simp [read, hgood, h]

lemma read_of_ends (hgood : s.state.good = true) (h : ¬ s.source.Has n)
    (hf : s.source.faults = false) :
    s.read n = (s.source.ahead n,
      { source := s.source.skip n, state := { eofbit := true, failbit := true } }) := by
  simp [read, h, hf, IoState.eq_of_good hgood]

lemma read_of_faults (hgood : s.state.good = true) (h : ¬ s.source.Has n)
    (hf : s.source.faults = true) :
    s.read n = ([], { source := s.source.skip n, state := { badbit := true } }) := by
  simp [read, h, hf, IoState.eq_of_good hgood]

lemma read_of_not_good (hgood : s.state.good = false) :
    s.read n = ([], { s with state := { s.state with failbit := true } }) := by
  simp [read, hgood]

lemma peek_of_has (hgood : s.state.good = true) (h : s.source.Has 1) :
    ∃ b, s.peek = (some b, s) := by
  cases hahead : s.source.ahead 1 with
  | nil => simp [Source.Has, hahead] at h
  | cons b rest => exact ⟨b, by simp [peek, hgood, hahead]⟩

lemma peek_of_not_has (hgood : s.state.good = true) (h : ¬ s.source.Has 1) :
    s.peek = (none, { s with state :=
      if s.source.faults then { badbit := true } else { eofbit := true } }) := by
  have hahead : s.source.ahead 1 = [] := by
    have hle := s.source.length_ahead_le 1
    have hne : (s.source.ahead 1).length ≠ 1 := h
    exact List.length_eq_zero_iff.mp (by omega)
  cases hf : s.source.faults <;>
    simp [peek, hahead, hf, IoState.eq_of_good hgood]

end Reading

end IStream

/-! ## Output streams -/

/-- `std::ostream`: the bytes its buffer has accepted, and how many more it accepts before it
fails (`none`: it never does). -/
structure OStream where
  written : Bytes := []
  room : Option ℕ := none
  state : IoState := {}

namespace OStream

/-- A write of `n` bytes fits. -/
def Fits (s : OStream) (n : ℕ) : Prop := ∀ r, s.room = some r → n ≤ r

instance (s : OStream) (n : ℕ) : Decidable (s.Fits n) :=
  match h : s.room with
  | none => isTrue fun r hr => by rw [h] at hr; cases hr
  | some r => decidable_of_iff (n ≤ r) ⟨fun hn r' hr => by rw [h] at hr; cases hr; exact hn,
      fun hn => hn r h⟩

/-- `out.write(data, size)`: what does not fit is cut off and sets `badbit`. -/
def write (data : Bytes) (s : OStream) : OStream :=
  if s.state.good then
    if s.Fits data.length then
      { s with written := s.written ++ data, room := s.room.map (· - data.length) }
    else
      { written := s.written ++ data.take (s.room.getD 0), room := some 0,
        state := { s.state with badbit := true } }
  else { s with state := { s.state with failbit := s.state.failbit || s.state.badbit } }

/-- A write of `n` bytes is refused: the stream has failed, or fails on it. -/
def Refuses (s : OStream) (n : ℕ) : Prop :=
  s.state.fail = true ∨ (s.state.good = true ∧ ¬ s.Fits n)

instance (s : OStream) (n : ℕ) : Decidable (s.Refuses n) := inferInstanceAs (Decidable (_ ∨ _))

/-- A stream that is good and never fails. -/
def Reliable (s : OStream) : Prop := s.state.good = true ∧ s.room = none

section Writing

variable {s : OStream} {data : Bytes}

lemma Reliable.fits (h : s.Reliable) (n : ℕ) : s.Fits n := by
  intro r hr
  rw [h.2] at hr
  cases hr

lemma write_of_fits (hgood : s.state.good = true) (h : s.Fits data.length) :
    s.write data =
      { s with written := s.written ++ data, room := s.room.map (· - data.length) } := by
  simp [write, hgood, h]

lemma write_of_not_fits (hgood : s.state.good = true) (h : ¬ s.Fits data.length) :
    s.write data =
      { written := s.written ++ data.take (s.room.getD 0), room := some 0,
        state := { badbit := true } } := by
  simp [write, h, IoState.eq_of_good hgood]

lemma write_of_not_good (hgood : s.state.good = false) :
    s.write data =
      { s with state := { s.state with failbit := s.state.failbit || s.state.badbit } } := by
  simp [write, hgood]

/-- After a write the stream has failed exactly if it refused the write. -/
lemma fail_write : (s.write data).state.fail = true ↔ s.Refuses data.length := by
  cases hgood : s.state.good with
  | false => simp [write_of_not_good hgood, Refuses, hgood, IoState.fail]
  | true =>
    have hstate := IoState.eq_of_good hgood
    by_cases hfits : s.Fits data.length
    · simp [write_of_fits hgood hfits, Refuses, hfits, hstate, IoState.fail]
    · simp [write_of_not_fits hgood hfits, Refuses, hfits, hgood, IoState.fail]

/-- A stream appends all of the data as long as it is good, some of it when it fails, and nothing
afterwards. -/
lemma written_write (s : OStream) (data : Bytes) :
    (s.write data).written <+: s.written ++ data ∧
      ((s.write data).state.good = true →
        s.state.good = true ∧ (s.write data).written = s.written ++ data) ∧
      (s.state.good = false → (s.write data).written = s.written) := by
  cases hgood : s.state.good with
  | false =>
    rw [write_of_not_good hgood]
    refine ⟨List.prefix_append _ _, fun h => ?_, fun _ => rfl⟩
    simp only [IoState.good, Bool.and_eq_true, Bool.not_eq_true', Bool.or_eq_false_iff] at h
    obtain ⟨⟨he, hf, _⟩, hb⟩ := h
    simp [IoState.good, he, hf, hb] at hgood
  | true =>
    refine ⟨?_, fun h => ⟨rfl, ?_⟩, fun h => by cases h⟩
    · by_cases hfits : s.Fits data.length
      · rw [write_of_fits hgood hfits]
      · rw [write_of_not_fits hgood hfits]
        exact List.prefix_append_right_inj _ |>.mpr (List.take_prefix _ _)
    · by_cases hfits : s.Fits data.length
      · rw [write_of_fits hgood hfits]
      · rw [write_of_not_fits hgood hfits] at h
        cases h

/-- Nothing that was written is taken back. -/
lemma written_prefix_write (s : OStream) (data : Bytes) :
    s.written <+: (s.write data).written := by
  cases hgood : s.state.good with
  | false =>
    rw [write_of_not_good hgood]
  | true =>
    by_cases hfits : s.Fits data.length
    · rw [write_of_fits hgood hfits]
      exact List.prefix_append _ _
    · rw [write_of_not_fits hgood hfits]
      exact List.prefix_append _ _

/-- A stream that is not good and has not failed has only its end-of-file flag set: it drops
whatever is written to it and never refuses. -/
lemma write_of_idle (hgood : s.state.good = false) (hfail : s.state.fail = false) (data : Bytes) :
    s.write data = s := by
  simp only [IoState.fail, Bool.or_eq_false_iff] at hfail
  rw [write_of_not_good hgood, hfail.1, hfail.2]
  obtain ⟨written, room, eofbit, failbit, badbit⟩ := s
  obtain rfl : failbit = false := hfail.1
  rfl

lemma not_refuses_of_idle (hgood : s.state.good = false) (hfail : s.state.fail = false) (n : ℕ) :
    ¬ s.Refuses n := by
  rintro (h | h)
  · simp [hfail] at h
  · simp [hgood] at h

/-- A refused write leaves something out. -/
lemma Refuses.written_write (h : s.Refuses data.length) (hne : data ≠ []) :
    ∃ n < data.length, (s.write data).written = s.written ++ data.take n := by
  cases hgood : s.state.good with
  | false =>
    refine ⟨0, List.length_pos_iff.mpr hne, ?_⟩
    rw [write_of_not_good hgood, List.take_zero, List.append_nil]
  | true =>
    have hfail : s.state.fail = false := by rw [IoState.eq_of_good hgood]; rfl
    have hfits : ¬ s.Fits data.length := by
      rcases h with h | h
      · simp [hfail] at h
      · exact h.2
    refine ⟨s.room.getD 0, ?_, by rw [write_of_not_fits hgood hfits]⟩
    by_contra hcon
    refine hfits fun r hr => ?_
    rw [hr, Option.getD_some] at hcon
    omega

lemma Fits.mono {m n : ℕ} (h : s.Fits n) (hle : m ≤ n) : s.Fits m := fun r hr => hle.trans (h r hr)

/-- Behind a write that fits, there is room for what the stream had room for behind it. -/
lemma fits_write_iff (hgood : s.state.good = true) (h : s.Fits data.length) (n : ℕ) :
    (s.write data).Fits n ↔ s.Fits (data.length + n) := by
  rw [write_of_fits hgood h]
  constructor
  · intro hn r hr
    have hroom := hn (r - data.length) (by simp [hr])
    have hle := h r hr
    omega
  · intro hn r hr
    obtain ⟨r', hr', rfl⟩ := Option.map_eq_some_iff.mp hr
    have hroom := hn r' hr'
    omega

/-- Two writes are refused like one of both sizes. -/
lemma refuses_write_iff (h : ¬ s.Refuses data.length) (n : ℕ) :
    (s.write data).Refuses n ↔ s.Refuses (data.length + n) := by
  have hfail : s.state.fail = false := by
    simpa using fun hf => h (.inl hf)
  cases hgood : s.state.good with
  | false =>
    rw [write_of_idle hgood hfail]
    exact iff_of_false (not_refuses_of_idle hgood hfail _) (not_refuses_of_idle hgood hfail _)
  | true =>
    have hfits : s.Fits data.length := not_not.mp fun hf => h (.inr ⟨hgood, hf⟩)
    have hnext : (s.write data).state = s.state := by rw [write_of_fits hgood hfits]
    simp only [Refuses, hnext, hfail, hgood, Bool.false_eq_true, true_and, false_or]
    exact not_congr (fits_write_iff hgood hfits n)

lemma Reliable.write (h : s.Reliable) (data : Bytes) :
    s.write data = { s with written := s.written ++ data } := by
  rw [write_of_fits h.1 (h.fits _), h.2]
  rfl

/-- Writing one piece after the other. -/
def writePieces (pieces : List Bytes) (s : OStream) : OStream :=
  pieces.foldl (fun s piece => s.write piece) s

lemma written_writePieces_of_not_good (pieces : List Bytes) (hgood : s.state.good = false) :
    (s.writePieces pieces).written = s.written := by
  induction pieces generalizing s with
  | nil => rfl
  | cons piece pieces ih =>
    have hnext : (s.write piece).state.good = false := by
      rw [← Bool.not_eq_true]
      intro h
      rw [((written_write s piece).2.1 h).1] at hgood
      cases hgood
    exact (ih hnext).trans ((written_write s piece).2.2 hgood)

/-- All pieces are taken exactly if they fit together. -/
lemma written_writePieces_iff (pieces : List Bytes) (hgood : s.state.good = true) :
    (s.writePieces pieces).written = s.written ++ pieces.flatten ↔
      s.Fits pieces.flatten.length := by
  induction pieces generalizing s with
  | nil => simp [writePieces, Fits]
  | cons piece pieces ih =>
    rw [List.flatten_cons, List.length_append]
    by_cases hfits : s.Fits piece.length
    · have hnext : (s.write piece).state.good = true := by
        rw [write_of_fits hgood hfits]
        exact hgood
      rw [← fits_write_iff hgood hfits, ← ih hnext, ← List.append_assoc]
      rw [show (s.write piece).written = s.written ++ piece from
        ((written_write s piece).2.1 hnext).2]
      exact Iff.rfl
    · refine iff_of_false (fun hall => ?_) fun hall => hfits (hall.mono (Nat.le_add_right _ _))
      have hbad : (s.write piece).state.good = false := by
        rw [write_of_not_fits hgood hfits]
        rfl
      have hcut : s.written ++ piece.take (s.room.getD 0) = s.written ++ (piece ++ pieces.flatten) := by
        rw [← hall, writePieces, List.foldl_cons]
        refine Eq.trans ?_ (written_writePieces_of_not_good pieces hbad).symm
        rw [write_of_not_fits hgood hfits]
      have hlength := congrArg List.length (List.append_cancel_left hcut)
      rw [List.length_take, List.length_append] at hlength
      refine hfits fun r hr => ?_
      rw [hr, Option.getD_some] at hlength
      omega

end Writing

end OStream

end Iostream
