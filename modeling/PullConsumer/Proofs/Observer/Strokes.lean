import Mathlib.Algebra.GroupWithZero.Nat
import Mathlib.Data.List.Basic
import Mathlib.Data.List.Induction
import PullConsumer.Observer

/-!
# What happens at a set of observers

An event is offered to every observer, an observer picks the next event out of its queue, an
observer is through with the event it picked. Nothing else ever happens at a set of observers, and
each of these is a `Stroke`. Strokes may follow each other in any order and with any time between
them: an observer may need as long as it likes for an event, it may panic over it or not, however it
treated such an event before, and events may be offered while it is busy, or between two events that
it takes within one tick. The turns that the program gives to observers are particular sequences of
strokes (`strikes_turn`).

What one observer has of a stroke is a `Sight`, if it has anything of it at all. The channel of an
observer, what it was offered and what is reported about it depend on its sights alone, whatever the
other observers are and do (`getElem?_strikes`, `gathered_eq`, `reportsOn_eq`).
-/

namespace PullConsumer.Observer

/-- What happens at one observer. -/
inductive Sight where
  /-- An event is offered. -/
  | offered (e : Event)
  /-- The next event is taken out of the queue, at a tick. -/
  | picked (tick : Nat)
  /-- The observer is through with the event that it picked, at a tick, and may have panicked. -/
  | done (tick : Nat) (panic : Option Panic)
  deriving DecidableEq, Inhabited

/-- What happens at a set of observers. -/
inductive Stroke where
  | emit (e : Event)
  | pick (number tick : Nat)
  | finish (number tick : Nat) (panic : Option Panic)
  deriving DecidableEq, Inhabited

namespace Stroke

/-- What the observer of a number has of a stroke. -/
def seenBy (k : Nat) : Stroke → Option Sight
  | emit e => some (.offered e)
  | pick n tick => if n = k then some (.picked tick) else none
  | finish n tick panic => if n = k then some (.done tick panic) else none

/-- The event that is offered. -/
def event? : Stroke → Option Event
  | emit e => some e
  | _ => none

/-- The stroke that one observer of a number has made. -/
def ofSight (k : Nat) : Sight → Stroke
  | .offered e => emit e
  | .picked tick => pick k tick
  | .done tick panic => finish k tick panic

end Stroke

/-! ### One channel -/

namespace Channel

/-- The events that the observer was handed, the first one first. It may be busy with the last
one. -/
def handed (c : Channel) : List Event :=
  (c.taken.map (·.2)).reverse ++ (c.taking.map (·.event)).toList

/-- The channel after an event was offered. -/
def receive (c : Channel) (e : Event) : Channel :=
  match c.offer e with
  | .ok c => c
  | .error _ => c

/-- What is reported when an event is offered. -/
def refusal (c : Channel) (e : Event) : List Event :=
  match c.offer e with
  | .ok _ => []
  | .error why => refusals e [(c.observer.name, why)]

/-- The observer takes the next event, unless it is busy or there is none. -/
def pick (c : Channel) (tick : Nat) : Channel :=
  match c.taking, c.queue with
  | none, e :: rest =>
    { c with queue := rest, taking := some ⟨e, tick + (c.observer.react e).pause⟩ }
  | _, _ => c

/-- The observer is through with the event that it is busy with. -/
def finish (c : Channel) (tick : Nat) : Channel :=
  match c.taking with
  | some t => { c with taking := none, taken := (tick, t.event) :: c.taken }
  | none => c

/-- What is reported when the observer is through with the event that it is busy with. -/
def outcry (c : Channel) (panic : Option Panic) : List Event :=
  match c.taking with
  | some _ => (panic.map fun p ↦ Event.panicked c.observer.name p.message).toList
  | none => []

def see (c : Channel) : Sight → Channel
  | .offered e => c.receive e
  | .picked tick => c.pick tick
  | .done tick _ => c.finish tick

/-- What is reported about the observer when something happens at it. -/
def tells (c : Channel) : Sight → List Event
  | .offered e => c.refusal e
  | .picked _ => []
  | .done _ panic => c.outcry panic

/-- An event that is offered, with the number of events that are in the queue then. -/
def meets (c : Channel) : Sight → List (Event × Nat)
  | .offered e => [(e, c.queue.length)]
  | _ => []

/-- An event that the observer is through with, and whether it panicked over it. -/
def ends (c : Channel) : Sight → List (Event × Option Panic)
  | .done _ panic => (c.taking.map fun t ↦ (t.event, panic)).toList
  | _ => []

/-- The channel after several things have happened. -/
def watch (c : Channel) (xs : List Sight) : Channel := xs.foldl see c

/-- What there is of something while several things happen. -/
def gather {α : Type} (f : Channel → Sight → List α) : Channel → List Sight → List α
  | _, [] => []
  | c, x :: rest => f c x ++ gather f (c.see x) rest

variable {c : Channel}

/-- An event that is not refused goes to the end of the queue. -/
theorem eq_of_offer {c' : Channel} {e : Event} (h : c.offer e = .ok c') :
    c' = { c with queue := c.queue ++ [e] } := by
  rw [offer] at h
  split at h
  · exact absurd h (by simp)
  · split at h
    · exact (Except.ok.inj h).symm
    · exact absurd h (by simp)

theorem watch_append (c : Channel) (xs ys : List Sight) :
    c.watch (xs ++ ys) = (c.watch xs).watch ys :=
  List.foldl_append

theorem gather_append {α : Type} (f : Channel → Sight → List α) (c : Channel)
    (xs ys : List Sight) : c.gather f (xs ++ ys) = c.gather f xs ++ (c.watch xs).gather f ys := by
  induction xs generalizing c with
  | nil => rfl
  | cons x rest ih => exact (congrArg (f c x ++ ·) (ih _)).trans (List.append_assoc ..).symm

/-! ### The turn of an observer -/

/-- What happens while an observer takes the events of a queue as far as they need no time. -/
def sightsOfQueue (now : Nat) (o : Observer) : List Event → List Sight
  | [] => []
  | e :: rest => .picked now ::
    if (o.react e).pause = 0 then
      .done now (o.react e).panic :: sightsOfQueue now o rest
    else []

/-- What happens in the turn of an observer. -/
def sights (now : Nat) (c : Channel) : List Sight :=
  match c.taking with
  | none => sightsOfQueue now c.observer c.queue
  | some t =>
    if now < t.due then []
    else .done now (c.observer.react t.event).panic :: sightsOfQueue now c.observer c.queue

theorem watch_sightsOfQueue (now : Nat) {es : List Event} (hidle : c.taking = none) :
    ({ c with queue := es } : Channel).watch (sightsOfQueue now c.observer es) =
        (c.takeAll now es).1 ∧
      ({ c with queue := es } : Channel).gather tells (sightsOfQueue now c.observer es) =
        (c.takeAll now es).2 := by
  induction es generalizing c with
  | nil => exact ⟨rfl, rfl⟩
  | cons e rest ih =>
    rw [sightsOfQueue, takeAll]
    by_cases hpause : (c.observer.react e).pause = 0
    · obtain ⟨hwatch, hsaid⟩ := @ih { c with taken := (now, e) :: c.taken } hidle
      simp only [hpause, if_true]
      rw [← hwatch, ← hsaid]
      simp only [watch, gather, List.foldl_cons, see, tells, pick, finish, outcry, complaint, hidle,
        List.nil_append, and_self]
    · simp only [hpause, if_false, watch, gather, List.foldl_cons, List.foldl_nil, see, tells, pick,
        hidle, List.nil_append, and_self]

/-- **A turn is a sequence of strokes.** -/
theorem watch_sights (now : Nat) (c : Channel) :
    c.watch (c.sights now) = (c.work now).1 ∧
      c.gather tells (c.sights now) = (c.work now).2 := by
  rw [sights, work]
  cases htaking : c.taking with
  | none => exact watch_sightsOfQueue now htaking
  | some t =>
    dsimp only
    split
    · exact ⟨rfl, rfl⟩
    · obtain ⟨hwatch, hsaid⟩ := @watch_sightsOfQueue
        { c with taking := none, taken := (now, t.event) :: c.taken } now c.queue rfl
      rw [← hwatch, ← hsaid]
      simp only [watch, gather, List.foldl_cons, see, tells, finish, outcry, complaint, htaking,
        and_self]

/-- Nothing is offered in a turn. -/
theorem offered_not_mem_sights (now : Nat) (c : Channel) (e : Event) :
    Sight.offered e ∉ c.sights now := by
  have hqueue (es : List Event) : Sight.offered e ∉ sightsOfQueue now c.observer es := by
    induction es with
    | nil => exact List.not_mem_nil
    | cons e' rest ih =>
      rw [sightsOfQueue]
      split <;> simp [ih]
  rw [sights]
  split
  · exact hqueue _
  · split
    · exact List.not_mem_nil
    · simp [hqueue]

/-- In its turn an observer treats every event as it does. -/
theorem panic_of_sights (now : Nat) (c : Channel) :
    ∀ x ∈ c.gather ends (c.sights now), x.2 = (c.observer.react x.1).panic := by
  have hqueue (es : List Event) (c : Channel) (hidle : c.taking = none) :
      ∀ x ∈ ({ c with queue := es } : Channel).gather ends (sightsOfQueue now c.observer es),
        x.2 = (c.observer.react x.1).panic := by
    induction es generalizing c with
    | nil => exact fun x hx ↦ absurd hx List.not_mem_nil
    | cons e rest ih =>
      intro x hx
      rw [sightsOfQueue] at hx
      by_cases hpause : (c.observer.react e).pause = 0
      · rw [if_pos hpause] at hx
        simp only [gather, see, pick, finish, ends, hidle, List.nil_append, Option.map_some,
          Option.toList_some, List.cons_append, List.mem_cons] at hx
        obtain rfl | hx := hx
        · rfl
        · exact ih { c with taking := none, taken := (now, e) :: c.taken } rfl x hx
      · rw [if_neg hpause] at hx
        exact absurd hx (by simp [gather, ends])
  intro x hx
  rw [sights] at hx
  cases htaking : c.taking with
  | none =>
    rw [htaking] at hx
    exact hqueue c.queue c htaking x hx
  | some t =>
    rw [htaking] at hx
    dsimp only at hx
    split at hx
    · exact absurd hx List.not_mem_nil
    · simp only [gather, ends, htaking, Option.map_some, Option.toList_some, List.cons_append,
        List.nil_append, List.mem_cons, see, finish] at hx
      obtain rfl | hx := hx
      · rfl
      · exact hqueue c.queue { c with taking := none, taken := (now, t.event) :: c.taken } rfl x hx

end Channel

/-! ### The whole set -/

/-- The channels of observers that were offered nothing yet. -/
def fresh (os : List Observer) : List Channel := os.map fun o ↦ { observer := o }

/-- The channels after a stroke. -/
def strike (cs : List Channel) : Stroke → List Channel
  | .emit e => (offerAll e 0 cs).channels
  | .pick n tick => cs.modify n (·.pick tick)
  | .finish n tick _ => cs.modify n (·.finish tick)

/-- What is put on the bus by a stroke, each report with the number of the observer that it is
about. -/
def reports (cs : List Channel) (x : Stroke) : List (Nat × Event) :=
  (List.range cs.length).flatMap fun k ↦
    ((cs[k]?).elim [] fun c ↦ (x.seenBy k).elim [] c.tells).map (Prod.mk k)

/-- The channels after several strokes. -/
def strikes (cs : List Channel) (strokes : List Stroke) : List Channel := strokes.foldl strike cs

/-- What is put on the bus by several strokes, in order. -/
def bulletin : List Channel → List Stroke → List (Nat × Event)
  | _, [] => []
  | cs, x :: rest => reports cs x ++ bulletin (strike cs x) rest

/-- The events that are offered, in order. -/
def emitted (strokes : List Stroke) : List Event := strokes.filterMap Stroke.event?

/-- What there is of something, at the observer of a number, during several strokes. -/
def gathered {α : Type} (f : Channel → Sight → List α) (k : Nat) :
    List Channel → List Stroke → List α
  | _, [] => []
  | cs, x :: rest =>
    ((cs[k]?).elim [] fun c ↦ (x.seenBy k).elim [] (f c)) ++ gathered f k (strike cs x) rest

/-- What the observer of a number is offered, each event with the number of events that are in its
queue then. -/
def offersTo (k : Nat) (cs : List Channel) (strokes : List Stroke) : List (Event × Nat) :=
  gathered Channel.meets k cs strokes

/-- The events that the observer of a number is through with, and how it ended with each. -/
def endsOf (k : Nat) (cs : List Channel) (strokes : List Stroke) : List (Event × Option Panic) :=
  gathered Channel.ends k cs strokes

/-- What is put on the bus about the observer of a number. -/
def reportsOn (k : Nat) (cs : List Channel) (strokes : List Stroke) : List Event :=
  ((bulletin cs strokes).filter (·.1 = k)).map (·.2)

variable {cs : List Channel} {k : Nat}

/-! ### What the program makes of an event that is offered -/

theorem channels_offerAll (e : Event) (first : Nat) (cs : List Channel) :
    (offerAll e first cs).channels = cs.map (·.receive e) := by
  induction cs generalizing first with
  | nil => rfl
  | cons c rest ih =>
    rw [offerAll, List.map_cons, ← ih (first + 1), Channel.receive]
    cases c.offer e <;> rfl

theorem refusals_offerAll (e : Event) (first : Nat) (cs : List Channel) :
    refusals e (offerAll e first cs).refused = cs.flatMap (·.refusal e) := by
  have hcons (x : String × Refused) (refused : List (String × Refused)) :
      refusals e (x :: refused) = refusals e [x] ++ refusals e refused := by
    simp only [refusals]
    split <;> rfl
  induction cs generalizing first with
  | nil =>
    rw [offerAll, refusals]
    split <;> rfl
  | cons c rest ih =>
    rw [offerAll, List.flatMap_cons, ← ih (first + 1), Channel.refusal]
    cases c.offer e with
    | ok c' => rfl
    | error why => exact hcons _ _

/-- The numbers of those who accept an event are the numbers of those who do not refuse it. -/
theorem mem_accepted_offerAll (e : Event) (first : Nat) (cs : List Channel) :
    k ∈ (offerAll e first cs).accepted ↔
      ∃ i c c', k = first + i ∧ cs[i]? = some c ∧ c.offer e = .ok c' := by
  induction cs generalizing first with
  | nil => simp [offerAll]
  | cons c rest ih =>
    have hsplit : (∃ i c' c'', k = first + i ∧ (c :: rest)[i]? = some c' ∧ c'.offer e = .ok c'') ↔
        (k = first ∧ ∃ c', c.offer e = .ok c') ∨
          ∃ i c' c'', k = first + 1 + i ∧ rest[i]? = some c' ∧ c'.offer e = .ok c'' := by
      constructor
      · rintro ⟨i, c', c'', rfl, hget, hoffer⟩
        cases i with
        | zero =>
          obtain rfl : c = c' := Option.some.inj hget
          exact Or.inl ⟨rfl, c'', hoffer⟩
        | succ i => exact Or.inr ⟨i, c', c'', by omega, hget, hoffer⟩
      · rintro (⟨rfl, c', hoffer⟩ | ⟨i, c', c'', rfl, hget, hoffer⟩)
        · exact ⟨0, c, c', rfl, rfl, hoffer⟩
        · exact ⟨i + 1, c', c'', by omega, hget, hoffer⟩
    rw [hsplit, ← ih (first + 1), offerAll]
    cases c.offer e with
    | ok c' => simp
    | error why => simp

/-- What is reported of an event that is offered is what the program publishes. -/
theorem reports_emit (cs : List Channel) (e : Event) :
    (reports cs (.emit e)).map (·.2) = refusals e (offerAll e 0 cs).refused := by
  have hmap : (reports cs (.emit e)).map (·.2) =
      (List.range cs.length).flatMap fun k ↦ (cs[k]?).elim [] (·.refusal e) := by
    rw [reports, List.map_flatMap]
    refine List.flatMap_congr fun k _ ↦ ?_
    rw [List.map_map]
    exact List.map_id _
  rw [hmap, refusals_offerAll]
  clear hmap
  induction cs using List.reverseRecOn with
  | nil => rfl
  | append_singleton cs c ih =>
    have hinit : ∀ k ∈ List.range cs.length, ((cs ++ [c])[k]?).elim [] (·.refusal e) =
        (cs[k]?).elim [] (·.refusal e) := fun k hk ↦ by
      rw [List.getElem?_append_left (List.mem_range.1 hk)]
    rw [List.length_append, List.length_singleton, List.range_succ, List.flatMap_append,
      List.flatMap_append, List.flatMap_congr hinit, ih]
    simp

/-! ### What one observer has of it -/

/-- **A stroke changes a channel by what its observer has of it.** -/
theorem getElem?_strike (cs : List Channel) (x : Stroke) (k : Nat) :
    (strike cs x)[k]? = cs[k]?.map fun c ↦ (x.seenBy k).elim c c.see := by
  cases x with
  | emit e =>
    rw [strike, channels_offerAll, List.getElem?_map]
    rfl
  | pick n tick =>
    rw [strike, List.getElem?_modify]
    by_cases hn : n = k <;> simp [hn, Stroke.seenBy, Channel.see]
  | finish n tick panic =>
    rw [strike, List.getElem?_modify]
    by_cases hn : n = k <;> simp [hn, Stroke.seenBy, Channel.see]

/-- **The channel of an observer depends on what the observer has seen, and on nothing else.** -/
theorem getElem?_strikes (cs : List Channel) (strokes : List Stroke) (k : Nat) :
    (strikes cs strokes)[k]? = cs[k]?.map (·.watch (strokes.filterMap (Stroke.seenBy k))) := by
  induction strokes generalizing cs with
  | nil => simp [strikes, Channel.watch]
  | cons x rest ih =>
    have hrest : (strikes cs (x :: rest))[k]? = (strikes (strike cs x) rest)[k]? := rfl
    rw [hrest, ih, getElem?_strike, Option.map_map]
    refine congrArg (cs[k]?.map ·) (funext fun c ↦ ?_)
    cases hx : x.seenBy k with
    | none => simp [hx]
    | some y => simp [hx, Channel.watch]

@[simp] theorem length_strikes (cs : List Channel) (strokes : List Stroke) :
    (strikes cs strokes).length = cs.length := by
  have hone (cs : List Channel) (x : Stroke) : (strike cs x).length = cs.length := by
    cases x with
    | emit e => rw [strike, channels_offerAll, List.length_map]
    | pick n tick => exact List.length_modify ..
    | finish n tick panic => exact List.length_modify ..
  induction strokes generalizing cs with
  | nil => rfl
  | cons x rest ih => exact (ih _).trans (hone cs x)

theorem strikes_append (cs : List Channel) (strokes more : List Stroke) :
    strikes cs (strokes ++ more) = strikes (strikes cs strokes) more :=
  List.foldl_append

theorem bulletin_append (cs : List Channel) (strokes more : List Stroke) :
    bulletin cs (strokes ++ more) = bulletin cs strokes ++ bulletin (strikes cs strokes) more := by
  induction strokes generalizing cs with
  | nil => rfl
  | cons x rest ih =>
    exact (congrArg (reports cs x ++ ·) (ih _)).trans (List.append_assoc ..).symm

theorem emitted_append (strokes more : List Stroke) :
    emitted (strokes ++ more) = emitted strokes ++ emitted more :=
  List.filterMap_append

/-- The reports on one observer among those of a stroke. -/
theorem filter_reports (cs : List Channel) (x : Stroke) (k : Nat) :
    ((reports cs x).filter (·.1 = k)).map (·.2) =
      (cs[k]?).elim [] fun c ↦ (x.seenBy k).elim [] c.tells := by
  generalize htells : (fun k ↦ (cs[k]?).elim [] fun c ↦ (x.seenBy k).elim [] c.tells) = f
  have hfilter (i : Nat) :
      ((f i).map (Prod.mk i)).filter (·.1 = k) = if i = k then (f i).map (Prod.mk i) else [] := by
    split
    · next hi =>
      refine List.filter_eq_self.2 fun y hy ↦ ?_
      obtain ⟨_, -, rfl⟩ := List.mem_map.1 hy
      exact decide_eq_true hi
    · next hi =>
      refine List.filter_eq_nil_iff.2 fun y hy ↦ ?_
      obtain ⟨_, -, rfl⟩ := List.mem_map.1 hy
      simpa using hi
  have hrange (n : Nat) :
      (List.range n).flatMap (fun i ↦ if i = k then (f i).map (Prod.mk i) else []) =
        if k < n then (f k).map (Prod.mk k) else [] := by
    induction n with
    | zero => rfl
    | succ n ih =>
      rw [List.range_succ, List.flatMap_append, ih]
      rcases Nat.lt_trichotomy n k with hlt | rfl | hgt
      · simp [Nat.ne_of_lt hlt, Nat.not_lt_of_lt hlt, Nat.not_lt.2 (Nat.succ_le_of_lt hlt)]
      · simp
      · simp [Nat.ne_of_gt hgt, hgt, Nat.lt_succ_of_lt hgt]
  have hk : f k = (cs[k]?).elim [] fun c ↦ (x.seenBy k).elim [] c.tells :=
    (congrFun htells k).symm
  have hreports : reports cs x = (List.range cs.length).flatMap fun i ↦ (f i).map (Prod.mk i) := by
    rw [← htells, reports]
  rw [hreports, List.filter_flatMap, funext hfilter, hrange, ← hk]
  split
  · rw [List.map_map]
    exact List.map_id _
  · next hlt => rw [hk, List.getElem?_eq_none (Nat.not_lt.1 hlt)]; rfl

/-- **The reports on an observer depend on what the observer has seen, and on nothing else.** -/
theorem reportsOn_eq (cs : List Channel) (strokes : List Stroke) (k : Nat) :
    reportsOn k cs strokes =
      (cs[k]?).elim [] (·.gather Channel.tells (strokes.filterMap (Stroke.seenBy k))) := by
  induction strokes generalizing cs with
  | nil => cases cs[k]? <;> rfl
  | cons x rest ih =>
    have hrest : reportsOn k cs (x :: rest) =
        ((reports cs x).filter (·.1 = k)).map (·.2) ++ reportsOn k (strike cs x) rest := by
      simp [reportsOn, bulletin]
    rw [hrest, ih, filter_reports, getElem?_strike]
    cases hc : cs[k]? with
    | none => rfl
    | some c => cases hx : x.seenBy k <;> simp [hx, Channel.gather]

/-- What there is of something at an observer depends on what the observer has seen, and on nothing
else. -/
theorem gathered_eq {α : Type} (f : Channel → Sight → List α) (cs : List Channel)
    (strokes : List Stroke) (k : Nat) : gathered f k cs strokes =
      (cs[k]?).elim [] (·.gather f (strokes.filterMap (Stroke.seenBy k))) := by
  induction strokes generalizing cs with
  | nil => cases cs[k]? <;> rfl
  | cons x rest ih =>
    rw [gathered, ih, getElem?_strike]
    cases hc : cs[k]? with
    | none => rfl
    | some c => cases hx : x.seenBy k <;> simp [hx, Channel.gather]

theorem gathered_append {α : Type} (f : Channel → Sight → List α) (k : Nat) (cs : List Channel)
    (strokes more : List Stroke) : gathered f k cs (strokes ++ more) =
      gathered f k cs strokes ++ gathered f k (strikes cs strokes) more := by
  induction strokes generalizing cs with
  | nil => rfl
  | cons x rest ih =>
    rw [List.cons_append, gathered, gathered, ih, List.append_assoc]
    rfl

/-! ### The turn of an observer among others -/

/-- A channel that changes changes what there is of something at all channels by as much. -/
theorem sum_map_set (f : Channel → Nat) {c : Channel} (hc : cs[k]? = some c) (c' : Channel) :
    ((cs.set k c').map f).sum + f c = (cs.map f).sum + f c' := by
  induction cs generalizing k with
  | nil => exact absurd hc (by simp)
  | cons first rest ih =>
    cases k with
    | zero =>
      obtain rfl : first = c := Option.some.inj hc
      simp only [List.set_cons_zero, List.map_cons, List.sum_cons]
      omega
    | succ k =>
      have hrest := ih (k := k) hc
      simp only [List.set_cons_succ, List.map_cons, List.sum_cons]
      omega

theorem seenBy_ofSight_self (k : Nat) (y : Sight) : (Stroke.ofSight k y).seenBy k = some y := by
  cases y <;> simp [Stroke.ofSight, Stroke.seenBy]

theorem seenBy_ofSight_of_ne {n : Nat} (hn : n ≠ k) {y : Sight} (hy : ∀ e, y ≠ .offered e) :
    (Stroke.ofSight n y).seenBy k = none := by
  cases y with
  | offered e => exact absurd rfl (hy e)
  | picked tick => simp [Stroke.ofSight, Stroke.seenBy, hn]
  | done tick panic => simp [Stroke.ofSight, Stroke.seenBy, hn]

/-- Nobody but the observer sees what it does by itself. -/
theorem filterMap_seenBy_ofSight {ys : List Sight} (hys : ∀ e, Sight.offered e ∉ ys) (i k : Nat) :
    (ys.map (Stroke.ofSight k)).filterMap (Stroke.seenBy i) = if k = i then ys else [] := by
  rw [List.filterMap_map]
  split
  · next hi =>
    have hself : Stroke.seenBy i ∘ Stroke.ofSight k = some := by
      rw [← hi]
      exact funext fun y ↦ seenBy_ofSight_self k y
    rw [hself, List.filterMap_some]
  · next hi =>
    refine List.filterMap_eq_nil_iff.2 fun y hy ↦ ?_
    exact seenBy_ofSight_of_ne hi fun e he ↦ hys e (he ▸ hy)

/-- What an observer does by itself changes its own channel alone. -/
theorem strikes_ofSight {c : Channel} (hc : cs[k]? = some c) {ys : List Sight}
    (hys : ∀ e, Sight.offered e ∉ ys) :
    strikes cs (ys.map (Stroke.ofSight k)) = cs.set k (c.watch ys) := by
  refine List.ext_getElem? fun i ↦ ?_
  rw [getElem?_strikes, List.getElem?_set, filterMap_seenBy_ofSight hys]
  split
  · next hi =>
    subst hi
    rw [hc, if_pos (List.getElem?_eq_some_iff.1 hc).1]
    rfl
  · exact Option.map_id_apply

/-- What an observer does by itself is reported of it alone. -/
theorem reports_ofSight {c : Channel} (hc : cs[k]? = some c) {y : Sight}
    (hy : ∀ e, y ≠ .offered e) :
    (reports cs (Stroke.ofSight k y)).map (·.2) = c.tells y := by
  have hall : (reports cs (Stroke.ofSight k y)).filter (·.1 = k) =
      reports cs (Stroke.ofSight k y) := by
    refine List.filter_eq_self.2 fun x hx ↦ decide_eq_true ?_
    obtain ⟨i, -, hx⟩ := List.mem_flatMap.1 hx
    obtain ⟨report, hreport, rfl⟩ := List.mem_map.1 hx
    by_contra hi
    rw [seenBy_ofSight_of_ne (Ne.symm hi) hy] at hreport
    cases hget : cs[i]? <;> simp [hget] at hreport
  rw [← hall, filter_reports, hc, seenBy_ofSight_self]
  rfl

theorem bulletin_ofSight {c : Channel} (hc : cs[k]? = some c) {ys : List Sight}
    (hys : ∀ e, Sight.offered e ∉ ys) :
    (bulletin cs (ys.map (Stroke.ofSight k))).map (·.2) = c.gather Channel.tells ys := by
  induction ys generalizing cs c with
  | nil => rfl
  | cons y rest ih =>
    have hy : ∀ e, y ≠ .offered e := fun e he ↦ hys e (he ▸ List.mem_cons_self)
    have hnext : (strike cs (Stroke.ofSight k y))[k]? = some (c.see y) := by
      rw [getElem?_strike, hc, seenBy_ofSight_self]
      rfl
    rw [List.map_cons, bulletin, List.map_append, reports_ofSight hc hy,
      ih hnext fun e he ↦ hys e (List.mem_cons_of_mem _ he)]
    rfl

/-- The strokes that an observer makes in its turn. -/
def Channel.strokes (k now : Nat) (c : Channel) : List Stroke :=
  (c.sights now).map (Stroke.ofSight k)

/-- **The turn of an observer is a sequence of strokes**, none of which offers anything. -/
theorem strikes_turn {c : Channel} (hc : cs[k]? = some c) (now : Nat) :
    strikes cs (c.strokes k now) = cs.set k (c.work now).1 ∧
      (bulletin cs (c.strokes k now)).map (·.2) = (c.work now).2 ∧
      emitted (c.strokes k now) = [] := by
  obtain ⟨hwatch, hsaid⟩ := Channel.watch_sights now c
  refine ⟨?_, ?_, ?_⟩
  · rw [Channel.strokes, strikes_ofSight hc (Channel.offered_not_mem_sights now c), hwatch]
  · rw [Channel.strokes, bulletin_ofSight hc (Channel.offered_not_mem_sights now c), hsaid]
  · rw [Channel.strokes, emitted, List.filterMap_map]
    refine List.filterMap_eq_nil_iff.2 fun y hy ↦ ?_
    cases y with
    | offered e => exact absurd hy (Channel.offered_not_mem_sights now c e)
    | picked tick => rfl
    | done tick panic => rfl

/-- In its turn an observer is through with events as it treats them, and nobody else is. -/
theorem endsOf_turn {c : Channel} (hc : cs[k]? = some c) (now i : Nat) :
    ∀ x ∈ endsOf i cs (c.strokes k now), i = k ∧ x.2 = (c.observer.react x.1).panic := by
  intro x hx
  rw [endsOf, gathered_eq, Channel.strokes,
    filterMap_seenBy_ofSight (Channel.offered_not_mem_sights now c)] at hx
  by_cases hi : k = i
  · subst hi
    rw [hc, if_pos rfl] at hx
    exact ⟨rfl, Channel.panic_of_sights now c x hx⟩
  · rw [if_neg hi] at hx
    cases hget : cs[i]? <;> simp [hget, Channel.gather] at hx

end PullConsumer.Observer
