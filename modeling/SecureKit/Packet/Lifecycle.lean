import SecureKit.Packet.Rejection

/-!
# Objects that are moved

Any number of objects of both classes, on which any calls are made and which are moved in any
order.  A state is numbered when it is constructed, and keeps its number when it moves from object
to object; a `System` records every call with the number of the state it was made on, so that the
life of a state can be followed through all moves (`System.history`).

* `Life` is what can be said of the calls on one state: a run of an automaton on phases, of which
  `Transition` is the refinement.
* `System.Inv` ties the lives to the objects, and holds of every reachable system.
* `packetStream_invariant` has the consequences.

## What is derived

`Moves` is `Transition` without the contexts and the library: in which phases a call can return,
what it can throw, and which phase follows.  A `Life` is a run of it, and `Ordered` is what every
life has: `begin` returns once at most and before anything else does, updates return between it
and the end, and nothing returns behind the end (`Life.ordered`).

`System.Inv` has to say that no two objects own the same state, or a call on one of them would show
in the life of the other.  A move gives the state of the source to the target and leaves a null
pointer behind; a move of an object to itself leaves everything as it is.  An object without a state
throws at every call, and its calls are no part of a life.

Nothing is assumed of OpenSSL here.  Any call of the library may fail, and a failure in the middle
of a packet leaves the phase where it is.
-/

namespace SecureKit.Packet

open ByteString Effect Evp

/-! ## The life of a state -/

/-- What a call answers. -/
abbrev Result := Except Error Bytes

/-- The call was turned down with `invalid_input`. -/
def TurnedDown (result : Result) : Prop := ∃ e, result = .error e ∧ e.code = .invalid_input

/-- The call ends the life of a state: a `finalize` that returns, or throws because the packet is
not authentic or its tag not a tag. -/
def Call.Ends : Call → Result → Prop
  | .finalize _, .ok _ => True
  | .finalize _, .error e => e.code = .authentication_failed ∨ e.code = .invalid_packet
  | _, _ => False

/-- What a call can answer in a phase, and the phase behind it. -/
inductive Moves : Phase → Call → Result → Phase → Prop
  | misplaced {p c result} (h : p ≠ c.phase) (hresult : TurnedDown result) : Moves p c result p
  | failed {p c e} (hphase : p = c.phase) (h : ¬ c.Ends (.error e)) : Moves p c (.error e) p
  | began {packetPrefix out} : Moves .ready (.begin packetPrefix) (.ok out) .active
  | updated {text out} : Moves .active (.update text) (.ok out) .active
  | ended {tag result} (h : (Call.finalize tag).Ends result) :
      Moves .active (.finalize tag) result .finished

/-- The calls on a state that has come to a phase. -/
inductive Life : Phase → List (Call × Result) → Prop
  | new : Life .ready []
  | step {p p' calls c result} (h : Life p calls) (hmove : Moves p c result p') :
      Life p' (calls ++ [(c, result)])

/-- The call is a `begin` that returned. -/
def IsBegun : Call × Result → Bool
  | (.begin _, .ok _) => true
  | _ => false

/-- The call is a `finalize` that returned. -/
def IsFinalized : Call × Result → Bool
  | (.finalize _, .ok _) => true
  | _ => false

/-- What the calls on one state look like. -/
structure Ordered (calls : List (Call × Result)) : Prop where
  begun_once : (calls.filter IsBegun).length ≤ 1
  finalized_once : (calls.filter IsFinalized).length ≤ 1
  /-- An `update` returns only behind the `begin` that returned and before the `finalize` that
  returns. -/
  updated_between : ∀ front text out, front ++ [(.update text, .ok out)] <+: calls →
    (∃ entry ∈ front, IsBegun entry = true) ∧ ∀ entry ∈ front, IsFinalized entry = false
  /-- Behind the end of its life a state turns down every call. -/
  ended : ∀ front c result, front ++ [(c, result)] <+: calls →
    (∃ entry ∈ front, entry.1.Ends entry.2) → TurnedDown result

section Life

variable {p : Phase} {calls : List (Call × Result)}

lemma not_ends_of_turnedDown {c : Call} {result : Result} (h : TurnedDown result) :
    ¬ c.Ends result := by
  obtain ⟨e, rfl, hcode⟩ := h
  cases c with
  | begin packetPrefix => exact id
  | update text => exact id
  | finalize tag =>
    intro hends
    rcases hends with hends | hends <;> rw [hcode] at hends <;> cases hends

lemma not_isBegun_of_turnedDown {c : Call} {result : Result} (h : TurnedDown result) :
    IsBegun (c, result) = false := by
  obtain ⟨e, rfl, -⟩ := h
  cases c <;> rfl

lemma ends_of_isFinalized {entry : Call × Result} (h : IsFinalized entry = true) :
    entry.1.Ends entry.2 := by
  obtain ⟨c, result⟩ := entry
  cases c with
  | begin packetPrefix => cases h
  | update text => cases h
  | finalize tag =>
    cases result with
    | ok out => trivial
    | error e => cases h

/-- A finished state stays so and turns down every call. -/
lemma Moves.of_finished {c : Call} {result : Result} {p' : Phase}
    (h : Moves .finished c result p') : p' = .finished ∧ TurnedDown result := by
  cases h with
  | misplaced _ hresult => exact ⟨rfl, hresult⟩
  | failed hphase => cases c <;> cases hphase

/-- A state is past its first phase exactly if it was begun. -/
lemma Life.begun_iff (h : Life p calls) :
    (∃ entry ∈ calls, IsBegun entry = true) ↔ p ≠ .ready := by
  induction h with
  | new => simp
  | @step p p' calls c result h hmove ih =>
    have hlast : (∃ entry ∈ calls ++ [(c, result)], IsBegun entry = true) ↔
        (∃ entry ∈ calls, IsBegun entry = true) ∨ IsBegun (c, result) = true := by
      simp only [List.mem_append, List.mem_singleton, or_and_right, exists_or, exists_eq_left]
    rw [hlast, ih]
    cases hmove with
    | misplaced hphase hresult =>
      rw [not_isBegun_of_turnedDown hresult]
      simp
    | failed => cases c <;> simp [IsBegun]
    | began => simp [IsBegun]
    | updated => simp
    | ended => simp

/-- A state whose life has ended is finished. -/
lemma Life.finished_of_ends (h : Life p calls) (hends : ∃ entry ∈ calls, entry.1.Ends entry.2) :
    p = .finished := by
  induction h with
  | new =>
    obtain ⟨entry, hentry, -⟩ := hends
    cases hentry
  | @step p p' calls c result h hmove ih =>
    obtain ⟨entry, hentry, hentry_ends⟩ := hends
    rcases List.mem_append.mp hentry with hold | hnew
    · have hfinished := ih ⟨entry, hold, hentry_ends⟩
      subst hfinished
      exact hmove.of_finished.1
    · obtain rfl := List.mem_singleton.mp hnew
      cases hmove with
      | misplaced _ hresult => exact absurd hentry_ends (not_ends_of_turnedDown hresult)
      | failed _ hnot => exact absurd hentry_ends hnot
      | began => exact hentry_ends.elim
      | updated => exact hentry_ends.elim
      | ended => rfl

/-- At most one entry of a list and a last one has a property, if none has when the last one has. -/
lemma length_filter_append_le_one {α : Type} {f : α → Bool} {l : List α} {a : α}
    (h : (l.filter f).length ≤ 1) (hlast : f a = true → ∀ b ∈ l, f b = false) :
    ((l ++ [a]).filter f).length ≤ 1 := by
  rw [List.filter_append, List.length_append]
  cases hfa : f a with
  | false =>
    rw [List.filter_singleton, hfa]
    exact h
  | true =>
    have hnone : l.filter f = [] := by
      rw [List.filter_eq_nil_iff]
      intro b hb
      rw [hlast hfa b hb]
      simp
    rw [hnone, List.filter_singleton, hfa]
    simp

/-- **The order of the calls** on one state. -/
theorem Life.ordered (h : Life p calls) : Ordered calls := by
  induction h with
  | new =>
    refine ⟨by simp, by simp, fun front text out hfront => ?_, fun front c result hfront => ?_⟩
    · simp at hfront
    · simp at hfront
  | @step p p' calls c result h hmove ih =>
    constructor
    · apply length_filter_append_le_one ih.begun_once
      intro hbegun
      -- Only a state that was not begun can be begun.
      have hready : p = .ready := by
        cases hmove with
        | misplaced _ hresult =>
          rw [not_isBegun_of_turnedDown hresult] at hbegun
          cases hbegun
        | failed => cases c <;> cases hbegun
        | began => rfl
        | updated => cases hbegun
        | ended => cases hbegun
      intro entry hentry
      by_contra hcon
      rw [Bool.not_eq_false] at hcon
      exact h.begun_iff.mp ⟨entry, hentry, hcon⟩ hready
    · apply length_filter_append_le_one ih.finalized_once
      intro hfinalized entry hentry
      by_contra hcon
      rw [Bool.not_eq_false] at hcon
      have hfinished := h.finished_of_ends ⟨entry, hentry, ends_of_isFinalized hcon⟩
      subst hfinished
      cases hmove with
      | misplaced _ hresult =>
        exact not_ends_of_turnedDown hresult (ends_of_isFinalized hfinalized)
      | failed _ hnot => exact hnot (ends_of_isFinalized hfinalized)
    · intro front text out hfront
      rcases List.prefix_concat_iff.mp hfront with heq | hold
      · obtain ⟨rfl, hlast⟩ := List.append_inj' heq rfl
        cases hlast
        have hactive : p = .active := by
          cases hmove with
          | misplaced _ hresult =>
            obtain ⟨e, he, -⟩ := hresult
            cases he
          | updated => rfl
        subst hactive
        refine ⟨h.begun_iff.mpr (by simp), fun entry hentry => ?_⟩
        by_contra hcon
        rw [Bool.not_eq_false] at hcon
        have hfinished := h.finished_of_ends ⟨entry, hentry, ends_of_isFinalized hcon⟩
        cases hfinished
      · exact ih.updated_between front text out hold
    · intro front c' result' hfront hends
      rcases List.prefix_concat_iff.mp hfront with heq | hold
      · obtain ⟨rfl, hlast⟩ := List.append_inj' heq rfl
        cases hlast
        have hfinished := h.finished_of_ends hends
        subst hfinished
        exact hmove.of_finished.2
      · exact ih.ended front c' result' hold hends

end Life

/-- The automaton on phases is what is left of the transitions of an object. -/
lemma Transition.moves {kind : Kind} {impl impl' : Impl} {lib lib' : Lib} {c : Call}
    {result : Result} (h : Transition kind impl lib c result impl' lib') :
    Moves impl.phase c result impl'.phase := by
  cases h with
  | misplaced hphase => exact .misplaced hphase ⟨_, rfl, rfl⟩
  | @oversized text name hactive =>
    rw [hactive]
    exact .failed rfl id
  | @malformed packetPrefix _ hready =>
    rw [hready]
    exact .failed rfl id
  | began _ hready =>
    rw [hready]
    exact .began
  | @notBegun packetPrefix _ _ hready =>
    rw [hready]
    exact .failed rfl id
  | updated hactive =>
    rw [hactive]
    exact .updated
  -- A failure of OpenSSL is not the end of a session, so the phase stays.
  | failed hactive hcall =>
    apply Moves.failed (hactive.trans hcall.symm)
    intro hends
    cases c with
    | begin packetPrefix => exact hends
    | update text => exact hends
    | finalize tag => rcases hends with hends | hends <;> cases hends
  | finished hactive =>
    rw [hactive]
    exact .ended trivial
  | refused _ hactive herror =>
    rw [hactive]
    apply Moves.ended
    rcases herror with rfl | rfl
    · exact .inr rfl
    · exact .inl rfl

/-! ## Systems of objects -/

/-- A call of a method, with the number of the state it was made on, if the object had one. -/
structure Event where
  id : Option ℕ
  call : Call
  result : Result

/-- All objects, with the states they own and their numbers, and what has happened to them.  An
object that was not constructed yet or is no more looks like one that was moved from. -/
structure System where
  objects : Kind → ℕ → Option (ℕ × Impl) := fun _ _ => none
  /-- How many states were constructed. -/
  count : ℕ := 0
  lib : Lib := {}
  events : List Event := []

/-- What a program can do with objects. -/
inductive Op
  | construct (kind : Kind) (slot : ℕ) (key : key256) (aad : Bytes)
  | call (kind : Kind) (slot : ℕ) (c : Call)
  | moveConstruct (kind : Kind) (slot source : ℕ)
  | moveAssign (kind : Kind) (slot source : ℕ)

namespace System

/-- The objects after one of them was given a state, or none. -/
def put (objects : Kind → ℕ → Option (ℕ × Impl)) (kind : Kind) (slot : ℕ)
    (owned : Option (ℕ × Impl)) : Kind → ℕ → Option (ℕ × Impl) :=
  fun kind' slot' => if kind' = kind ∧ slot' = slot then owned else objects kind' slot'

/-- A `unique_ptr` that is moved leaves a null pointer behind, and stays as it is when it is moved
to itself. -/
def moveTo (sys : System) (kind : Kind) (slot source : ℕ) : System :=
  { sys with
    objects := put (put sys.objects kind source none) kind slot (sys.objects kind source) }

/-- One operation.  The state an object owned is destroyed when it is given another one. -/
def step (ssl : Openssl) (sys : System) : Op → System
  | .construct kind slot key aad =>
    match (Impl.new key aad : Eff Unit Impl) () with
    | .error _ _ => sys
    | .ok impl _ =>
      { sys with objects := put sys.objects kind slot (some (sys.count, impl)),
                 count := sys.count + 1 }
  | .call kind slot c =>
    let owned := sys.objects kind slot
    let (result, o) := answer ssl kind c ⟨owned.map Prod.snd, sys.lib⟩
    let left := owned.bind fun entry => o.impl.map fun impl => (entry.1, impl)
    { sys with objects := put sys.objects kind slot left, lib := o.lib,
               events := sys.events ++ [⟨owned.map Prod.fst, c, result⟩] }
  | .moveConstruct kind slot source => sys.moveTo kind slot source
  | .moveAssign kind slot source => sys.moveTo kind slot source

/-- The system behind a sequence of operations. -/
def after (ssl : Openssl) (ops : List Op) : System := ops.foldl (step ssl) {}

/-- The calls made on the state with a number, with their answers. -/
def history (sys : System) (id : ℕ) : List (Call × Result) :=
  (sys.events.filter fun event => event.id = some id).map fun event => (event.call, event.result)

/-- What holds of every reachable system. -/
structure Inv (sys : System) : Prop where
  object : ∀ kind slot id impl, sys.objects kind slot = some (id, impl) →
    impl.Inv kind ∧ id < sys.count ∧ Life impl.phase (sys.history id)
  /-- A state has one owner. -/
  unique : ∀ kind slot kind' slot' id impl impl', sys.objects kind slot = some (id, impl) →
    sys.objects kind' slot' = some (id, impl') → kind = kind' ∧ slot = slot'
  life : ∀ id, ∃ phase, Life phase (sys.history id)
  fresh : ∀ id, sys.count ≤ id → sys.history id = []
  /-- No call was made on a null context. -/
  live : ∀ c, LibCall.cipher none c ∉ sys.lib.calls
  /-- An object without state turns down every call. -/
  stateless : ∀ event ∈ sys.events, event.id = none → TurnedDown event.result

lemma put_eq {objects : Kind → ℕ → Option (ℕ × Impl)} {kind kind' : Kind} {slot slot' : ℕ}
    {owned : Option (ℕ × Impl)} {entry : ℕ × Impl}
    (h : put objects kind slot owned kind' slot' = some entry) :
    (kind' = kind ∧ slot' = slot ∧ owned = some entry) ∨
      (¬ (kind' = kind ∧ slot' = slot) ∧ objects kind' slot' = some entry) := by
  unfold put at h
  by_cases hsame : kind' = kind ∧ slot' = slot
  · rw [if_pos hsame] at h
    exact .inl ⟨hsame.1, hsame.2, h⟩
  · rw [if_neg hsame] at h
    exact .inr ⟨hsame, h⟩

section Steps

variable {ssl : Openssl} {sys : System}

lemma inv_start : ({} : System).Inv where
  object kind slot id impl h := by cases h
  unique kind slot kind' slot' id impl impl' h := by cases h
  life id := ⟨.ready, .new⟩
  fresh id _ := rfl
  live c h := by cases h
  stateless event h := by cases h

/-- A constructed state has a number of its own. -/
lemma Inv.construct (h : sys.Inv) (kind : Kind) (slot : ℕ) {impl : Impl}
    (hready : impl.phase = .ready) :
    Inv { sys with objects := put sys.objects kind slot (some (sys.count, impl)),
                   count := sys.count + 1 } where
  object kind' slot' id impl' hput := by
    rcases put_eq hput with ⟨rfl, rfl, heq⟩ | ⟨-, hold⟩
    · cases heq
      refine ⟨.of_ready hready, Nat.lt_succ_self _, ?_⟩
      have hnone : sys.history sys.count = [] := h.fresh _ le_rfl
      rw [hready]
      exact hnone ▸ Life.new
    · obtain ⟨hinv, hlt, hlife⟩ := h.object _ _ _ _ hold
      exact ⟨hinv, Nat.lt_succ_of_lt hlt, hlife⟩
  unique kind₁ slot₁ kind₂ slot₂ id impl₁ impl₂ h₁ h₂ := by
    rcases put_eq h₁ with ⟨rfl, rfl, heq₁⟩ | ⟨-, hold₁⟩
    · rcases put_eq h₂ with ⟨rfl, rfl, -⟩ | ⟨-, hold₂⟩
      · exact ⟨rfl, rfl⟩
      · cases heq₁
        exact absurd (h.object _ _ _ _ hold₂).2.1 (lt_irrefl _)
    · rcases put_eq h₂ with ⟨rfl, rfl, heq₂⟩ | ⟨-, hold₂⟩
      · cases heq₂
        exact absurd (h.object _ _ _ _ hold₁).2.1 (lt_irrefl _)
      · exact h.unique _ _ _ _ _ _ _ hold₁ hold₂
  life := h.life
  fresh id hid := h.fresh id ((Nat.le_succ _).trans hid)
  live := h.live
  stateless := h.stateless

/-- A move takes a state from one object to another. -/
lemma Inv.moveTo (h : sys.Inv) (kind : Kind) (slot source : ℕ) :
    (sys.moveTo kind slot source).Inv := by
  -- Whoever owns a state afterwards has it from an object that owned it before.
  have howner : ∀ {kind' slot' entry},
      (sys.moveTo kind slot source).objects kind' slot' = some entry →
      (kind' = kind ∧ slot' = slot ∧ sys.objects kind source = some entry) ∨
        (sys.objects kind' slot' = some entry ∧ ¬ (kind' = kind ∧ slot' = slot) ∧
          ¬ (kind' = kind ∧ slot' = source)) := by
    intro kind' slot' entry hput
    rcases put_eq hput with hmoved | ⟨hother, hput⟩
    · exact .inl hmoved
    · rcases put_eq hput with ⟨-, -, hnone⟩ | ⟨hsource, hold⟩
      · cases hnone
      · exact .inr ⟨hold, hother, hsource⟩
  constructor
  · intro kind' slot' id impl hput
    rcases howner hput with ⟨rfl, rfl, hold⟩ | ⟨hold, -⟩
    · exact h.object _ _ _ _ hold
    · exact h.object _ _ _ _ hold
  · intro kind₁ slot₁ kind₂ slot₂ id impl₁ impl₂ h₁ h₂
    rcases howner h₁ with ⟨rfl, rfl, hold₁⟩ | ⟨hold₁, -, hsource₁⟩
    · rcases howner h₂ with ⟨rfl, rfl, -⟩ | ⟨hold₂, -, hsource₂⟩
      · exact ⟨rfl, rfl⟩
      · obtain ⟨rfl, rfl⟩ := h.unique _ _ _ _ _ _ _ hold₁ hold₂
        exact absurd ⟨rfl, rfl⟩ hsource₂
    · rcases howner h₂ with ⟨rfl, rfl, hold₂⟩ | ⟨hold₂, -, -⟩
      · obtain ⟨rfl, rfl⟩ := h.unique _ _ _ _ _ _ _ hold₁ hold₂
        exact absurd ⟨rfl, rfl⟩ hsource₁
      · exact h.unique _ _ _ _ _ _ _ hold₁ hold₂
  · exact h.life
  · exact h.fresh
  · exact h.live
  · exact h.stateless

/-- The history of a state, and of the others, behind one more event. -/
lemma history_append (events : List Event) (event : Event) (id : ℕ) :
    ({ sys with events := events ++ [event] } : System).history id =
      ({ sys with events } : System).history id ++
        if event.id = some id then [(event.call, event.result)] else [] := by
  unfold history
  rw [List.filter_append, List.map_append, List.filter_singleton]
  by_cases hid : event.id = some id
  · simp [hid]
  · simp [hid]

/-- A call of an object without state is turned down, and belongs to no history. -/
lemma Inv.turnedDown (h : sys.Inv) (c : Call) (message : String) :
    Inv { sys with events := sys.events ++ [⟨none, c, .error (invalidInput message)⟩] } := by
  have hhistory : ∀ id, ({ sys with
      events := sys.events ++ [⟨none, c, .error (invalidInput message)⟩] } : System).history id =
      sys.history id := by
    intro id
    refine (history_append sys.events _ id).trans ?_
    simp
  constructor
  · intro kind slot id impl howned
    rw [hhistory]
    exact h.object _ _ _ _ howned
  · exact h.unique
  · intro id
    rw [hhistory]
    exact h.life id
  · intro id hid
    rw [hhistory]
    exact h.fresh id hid
  · exact h.live
  · intro event hevent hnone
    rcases List.mem_append.mp hevent with hold | hnew
    · exact h.stateless event hold hnone
    · rw [List.mem_singleton.mp hnew]
      exact ⟨_, rfl, rfl⟩

/-- A transition of a state is the next event of its history. -/
lemma Inv.transition (h : sys.Inv) {kind : Kind} {slot owner : ℕ} {impl impl' : Impl} {c : Call}
    {result : Result} {lib' : Lib} (howned : sys.objects kind slot = some (owner, impl))
    (htransition : Transition kind impl sys.lib c result impl' lib') :
    Inv { sys with objects := put sys.objects kind slot (some (owner, impl')), lib := lib',
                   events := sys.events ++ [⟨some owner, c, result⟩] } := by
  obtain ⟨hinv, hlt, hlife⟩ := h.object _ _ _ _ howned
  have hlife' := Life.step hlife htransition.moves
  have hhistory : ∀ id, ({ sys with
      objects := put sys.objects kind slot (some (owner, impl')), lib := lib',
      events := sys.events ++ [⟨some owner, c, result⟩] } : System).history id =
      sys.history id ++ if some owner = some id then [(c, result)] else [] :=
    fun id => history_append sys.events _ id
  constructor
  · intro kind' slot' id impl₁ hput
    rw [hhistory]
    rcases put_eq hput with ⟨rfl, rfl, heq⟩ | ⟨hother, hold⟩
    · -- The object that was called has the next state, and the call is in its history.
      cases heq
      rw [if_pos rfl]
      exact ⟨htransition.inv hinv, hlt, hlife'⟩
    · -- Another object owns another state.
      have hne : some owner ≠ some id := by
        intro heq
        cases heq
        exact hother (h.unique _ _ _ _ _ _ _ hold howned)
      rw [if_neg hne, List.append_nil]
      exact h.object _ _ _ _ hold
  · intro kind₁ slot₁ kind₂ slot₂ id impl₁ impl₂ h₁ h₂
    -- The call gives no object a state that it did not own.
    have hback : ∀ {kind' slot' left},
        put sys.objects kind slot (some (owner, impl')) kind' slot' = some (id, left) →
        ∃ before, sys.objects kind' slot' = some (id, before) := by
      intro kind' slot' left hput
      rcases put_eq hput with ⟨rfl, rfl, heq⟩ | ⟨-, hold⟩
      · cases heq
        exact ⟨impl, howned⟩
      · exact ⟨left, hold⟩
    obtain ⟨_, hold₁⟩ := hback h₁
    obtain ⟨_, hold₂⟩ := hback h₂
    exact h.unique _ _ _ _ _ _ _ hold₁ hold₂
  · intro id
    rw [hhistory]
    by_cases heq : some owner = some id
    · cases heq
      rw [if_pos rfl]
      exact ⟨_, hlife'⟩
    · rw [if_neg heq, List.append_nil]
      exact h.life id
  · intro id hid
    have hne : some owner ≠ some id := by
      intro heq
      cases heq
      exact absurd hlt (not_lt.mpr hid)
    rw [hhistory, if_neg hne, List.append_nil]
    exact h.fresh id hid
  · -- The calls of the library are those of the method, and it has a context.
    intro c' hc'
    obtain ⟨more, hcalls, hnone⟩ := htransition.after
    change LibCall.cipher none c' ∈ lib'.calls at hc'
    rw [hcalls] at hc'
    rcases List.mem_append.mp hc' with hold | hnew
    · exact h.live c' hold
    · exact hnone c' hnew
  · intro event hevent hid
    rcases List.mem_append.mp hevent with hold | hnew
    · exact h.stateless event hold hid
    · rw [List.mem_singleton.mp hnew] at hid
      cases hid

/-- **A call** keeps the invariant, whatever OpenSSL answers. -/
lemma Inv.call (h : sys.Inv) (kind : Kind) (slot : ℕ) (c : Call) :
    (step ssl sys (.call kind slot c)).Inv := by
  cases howned : sys.objects kind slot with
  -- An object that was moved from has no state, and only throws.
  | none =>
    obtain ⟨message, hanswer⟩ := answer_none ssl kind c sys.lib
    have hsame : put sys.objects kind slot none = sys.objects := by
      funext kind' slot'
      unfold put
      split
      · rename_i heq
        rw [heq.1, heq.2, howned]
      · rfl
    have hstep : step ssl sys (.call kind slot c) =
        { sys with events := sys.events ++ [⟨none, c, .error (invalidInput message)⟩] } := by
      simp only [step, howned, Option.map_none, hanswer, Option.bind_none, hsame]
    rw [hstep]
    exact h.turnedDown c message
  | some owned =>
    obtain ⟨owner, impl⟩ := owned
    obtain ⟨hinv, -, -⟩ := h.object _ _ _ _ howned
    obtain ⟨impl', himpl, htransition⟩ :=
      transition_of_answer ssl kind c sys.lib hinv.exists_context
    have hstep : step ssl sys (.call kind slot c) =
        { sys with
          objects := put sys.objects kind slot (some (owner, impl')),
          lib := (answer ssl kind c ⟨some impl, sys.lib⟩).2.lib,
          events := sys.events ++ [⟨some owner, c, (answer ssl kind c ⟨some impl, sys.lib⟩).1⟩] } := by
      simp only [step, howned, Option.map_some, Option.bind_some, himpl]
    rw [hstep]
    exact h.transition howned htransition

lemma Inv.step (h : sys.Inv) (op : Op) : (System.step ssl sys op).Inv := by
  cases op with
  | construct kind slot key aad =>
    by_cases hlong : intMax < aad.length
    · have hnew : (Impl.new key aad : Eff Unit Impl) () = .error (updateLimitError "AAD") () := by
        rw [Impl.new, dif_pos hlong]
        rfl
      simp only [System.step, hnew]
      exact h
    · have hnew : (Impl.new key aad : Eff Unit Impl) () =
          .ok { key, aad, aad_le := not_lt.mp hlong } () := by
        rw [Impl.new, dif_neg hlong]
        rfl
      simp only [System.step, hnew]
      exact h.construct kind slot rfl
  | call kind slot c => exact h.call kind slot c
  | moveConstruct kind slot source => exact h.moveTo kind slot source
  | moveAssign kind slot source => exact h.moveTo kind slot source

/-- **Every reachable system** has the invariant. -/
theorem inv_after (ssl : Openssl) (ops : List Op) : (after ssl ops).Inv := by
  have hfold : ∀ (ops : List Op) (sys : System), sys.Inv →
      (ops.foldl (System.step ssl) sys).Inv := by
    intro ops
    induction ops with
    | nil => exact fun _ h => h
    | cons op ops ih => exact fun sys h => ih _ (h.step op)
  exact hfold ops {} inv_start

end Steps

end System

/-- **The packet-stream state machine**, for any operations on any objects and any answers of
OpenSSL. -/
theorem packetStream_invariant (ssl : Openssl) (ops : List Op) :
    let sys := System.after ssl ops
    (∀ kind slot id impl, sys.objects kind slot = some (id, impl) →
      (impl.phase = .active →
        ∃ ctx, impl.context = some ctx ∧ Absorbed kind impl.key impl.aad ctx) ∧
      (impl.phase = .finished → impl.context = none)) ∧
    (∀ c, LibCall.cipher none c ∉ sys.lib.calls) ∧
    (∀ id, Ordered (sys.history id)) ∧
    ∀ event ∈ sys.events, event.id = none → TurnedDown event.result := by
  intro sys
  have h : sys.Inv := System.inv_after ssl ops
  refine ⟨?_, h.live, ?_, h.stateless⟩
  · intro kind slot id impl howned
    obtain ⟨hinv, -, -⟩ := h.object kind slot id impl howned
    exact ⟨hinv.active, hinv.finished⟩
  · intro id
    obtain ⟨phase, hlife⟩ := h.life id
    exact hlife.ordered

end SecureKit.Packet
