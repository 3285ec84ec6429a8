import Mathlib.Data.List.Nodup
import PullConsumer.Proofs.Interleavings
import PullConsumer.Slots.Desk

/-!
# A pool of slots under every interleaving

Callers take slots and give them back, tasks come to wait for a slot or for an idle pool, any of
them may be called off at any moment, and those who are ready have their turns in any order. Two
facts are kept.

* *The counts balance* (`Balanced`): what is free and what is in use add up to the capacity, and what
  is in use is what is held. While a slot is on its way, taken but not held under a name yet, it is
  loose; so a slot that is given back is always one that was counted, and the count of slots in use
  never goes below zero.
* *Every visitor attends* (`Attends`): a task that waits will look again, or listens for slots that
  are given back while there is nothing for it. A release makes everyone ready who waits. What a
  task that looks can take away from the others is a free slot, and that leaves those who wait for
  idleness no better off. So nothing is missed, although nothing is reserved for anyone.

A task whose wish for a slot is granted holds one from then on (`Takes`), as if it had taken it at
once. A task that is called off stands for nothing in the counts. That is why it makes no difference
whether it was woken before.
-/

namespace PullConsumer.Slots

/-- There is something for a wish. -/
def Wish.Open (s : Slots) : Wish → Prop
  | .slot => 0 < s.free
  | .idle => s.inUse = 0

/-- A slot that is taken opens no wish. -/
theorem Wish.open_of_take? {s t : Slots} (h : s.take? = some t) {w : Wish} (hw : w.Open t) :
    w.Open s := by
  have hfree : s.free ≠ 0 := fun h0 ↦ absurd (take?_eq_none_iff.2 h0) (by simp [h])
  have huse := inUse_of_take? h
  cases w with
  | slot => exact Nat.pos_of_ne_zero hfree
  | idle =>
    have hzero : t.inUse = 0 := hw
    omega

namespace Desk

variable {capacity loose number : Nat} {d e : Desk} {name : String} {v w : Visitor}

/-! ### The counts -/

/-- The two counts of a pool, of which `loose` slots are held under no name. -/
structure Balanced (capacity loose : Nat) (d : Desk) : Prop where
  inUse : d.slots.inUse = d.held.length + loose
  total : d.slots.inUse + d.slots.free = capacity
  capacity : d.slots.capacity = capacity

theorem balanced_of_create {slots : Slots} (h : create capacity = .ok slots) :
    Balanced capacity 0 { slots } := by
  rw [create] at h
  split at h
  · exact absurd h (by simp)
  · split at h
    · exact absurd h (by simp)
    · obtain rfl := Except.ok.inj h
      exact ⟨rfl, Nat.zero_add capacity, rfl⟩

namespace Balanced

/-- The counts are about slots and names alone. -/
theorem of_eq (h : Balanced capacity loose d) (hslots : e.slots = d.slots)
    (hheld : e.held = d.held) : Balanced capacity loose e :=
  ⟨by rw [hslots, hheld, h.inUse], by rw [hslots, h.total], by rw [hslots, h.capacity]⟩

theorem take? (h : Balanced capacity loose d) {slots : Slots} (hs : d.slots.take? = some slots) :
    Balanced capacity (loose + 1) { d with slots } := by
  have huse := inUse_of_take? hs
  have hsum := free_add_inUse_of_take? hs
  have hcapacity : slots.capacity = d.slots.capacity := by
    rw [Slots.take?] at hs
    split at hs
    · exact absurd hs (by simp)
    · obtain rfl := Option.some.inj hs
      rfl
  have huse' := h.inUse
  have htotal := h.total
  refine ⟨?_, ?_, hcapacity.trans h.capacity⟩
  · show slots.inUse = d.held.length + (loose + 1)
    omega
  · show slots.inUse + slots.free = capacity
    omega

/-- A loose slot that is given back was in use. -/
theorem release (h : Balanced capacity (loose + 1) d) : Balanced capacity loose d.release := by
  have huse := h.inUse
  have htotal := h.total
  refine ⟨?_, ?_, h.capacity⟩
  · show d.slots.inUse - 1 = d.held.length + loose
    omega
  · show d.slots.inUse - 1 + (d.slots.free + 1) = capacity
    omega

theorem keep (h : Balanced capacity (loose + 1) d) (name : String) :
    Balanced capacity loose (d.keep name) := by
  rw [Desk.keep]
  split
  · exact h.release
  · refine ⟨?_, h.total, h.capacity⟩
    show d.slots.inUse = (d.held ++ [name]).length + loose
    rw [h.inUse, List.length_append, List.length_singleton]
    omega

theorem tryTake? (h : Balanced capacity loose d) (he : d.tryTake? name = some e) :
    Balanced capacity loose e := by
  obtain ⟨slots, hslots, rfl⟩ := Option.map_eq_some_iff.1 he
  exact (h.take? hslots).keep name

/-- A slot that leaves its name is loose. -/
theorem unname (h : Balanced capacity loose d) (hname : name ∈ d.held) :
    Balanced capacity (loose + 1) { d with held := d.held.erase name } := by
  have hlength := List.length_erase_of_mem hname
  have hpos := List.length_pos_of_mem hname
  refine ⟨?_, h.total, h.capacity⟩
  show d.slots.inUse = (d.held.erase name).length + (loose + 1)
  have huse := h.inUse
  omega

end Balanced

/-! ### Those who wait -/

/-- A visitor looks again, or listens while there is nothing for it. -/
def Attends (d : Desk) (v : Visitor) : Prop :=
  v.number ∈ d.scheduler.ready ∨
    (Signal.released, v.number) ∈ d.scheduler.waiting ∧ ¬ v.wish.Open d.slots

namespace Attends

theorem expects (h : d.Attends v) : d.scheduler.Expects .released v.number := h.imp id And.left

/-- A release is news for everyone who waits. -/
theorem of_release (h : d.scheduler.Expects .released v.number) : d.release.Attends v :=
  Or.inl h.ready_notify

theorem take? (h : d.Attends v) {slots : Slots} (hs : d.slots.take? = some slots) :
    Attends { d with slots } v :=
  h.imp id (And.imp_right fun hclosed hopen ↦ hclosed (Wish.open_of_take? hs hopen))

theorem keep (h : d.Attends v) (name : String) : (d.keep name).Attends v := by
  rw [Desk.keep]
  split
  · exact of_release h.expects
  · exact h

theorem tryTake? (h : d.Attends v) (he : d.tryTake? name = some e) : e.Attends v := by
  obtain ⟨slots, hslots, rfl⟩ := Option.map_eq_some_iff.1 he
  exact (h.take? hslots).keep name

theorem listen (h : d.Attends v) (number : Nat) :
    Attends { d with scheduler := d.scheduler.listen .released number } v :=
  h.imp (fun hready ↦ by rwa [Scheduler.ready_listen])
    (And.imp_left fun hmem ↦ Scheduler.mem_waiting_listen.2 (Or.inl hmem))

theorem take_of_ne (h : d.Attends v) (hne : v.number ≠ number) :
    Attends { d with scheduler := d.scheduler.take number } v :=
  h.imp (Scheduler.mem_ready_take_of_ne hne).2 id

theorem forget_of_ne (h : d.Attends v) (hne : v.number ≠ number) :
    Attends { d with scheduler := d.scheduler.forget number } v :=
  h.imp id (And.imp_left fun hmem ↦ Scheduler.mem_waiting_forget.2 ⟨hmem, hne⟩)

theorem wake (h : d.Attends v) (number : Nat) :
    Attends { d with scheduler := d.scheduler.wake number } v :=
  h.imp (fun hready ↦ Scheduler.mem_ready_wake.2 (Or.inl hready))
    (And.imp_left fun hmem ↦ by rwa [Scheduler.waiting_wake])

theorem ringAt (h : d.Attends v) (tick : Nat) :
    Attends { d with scheduler := d.scheduler.ringAt tick } v :=
  h.imp (fun hready ↦ Scheduler.mem_ready_ringAt.2 (Or.inl hready))
    (And.imp_left fun hmem ↦ by rwa [Scheduler.waiting_ringAt])

end Attends

/-- A desk whose counts balance and whose visitors, each with a number of its own, attend. -/
structure Sound (capacity : Nat) (d : Desk) : Prop where
  balanced : Balanced capacity 0 d
  issued : ∀ v ∈ d.visitors, v.number < d.visits
  apart : (d.visitors.map Visitor.number).Nodup
  attends : ∀ v ∈ d.visitors, d.Attends v

theorem sound_of_create {slots : Slots} (h : create capacity = .ok slots) :
    Sound capacity { slots } :=
  ⟨balanced_of_create h, by simp, List.nodup_nil, by simp⟩

/-! ### Turns -/

/-- The desk while a task has its turn, which is not ready any more. -/
def attending (d : Desk) (number : Nat) : Desk := { d with scheduler := d.scheduler.take number }

/-- A visitor that looks takes a slot, finds the pool idle, or listens since there is nothing for
it. -/
theorem look_cases (d : Desk) (v : Visitor) :
    (v.wish = .slot ∧ ∃ e, d.tryTake? v.name = some e ∧ d.look v = e.grant v) ∨
    (v.wish = .idle ∧ d.slots.inUse = 0 ∧ d.look v = d.grant v) ∨
    (¬ v.wish.Open d.slots ∧
      d.look v = { d with scheduler := d.scheduler.listen .released v.number }) := by
  rw [look]
  rcases hwish : v.wish with - | -
  · rcases htake : d.tryTake? v.name with - | e
    · have hfree : d.slots.free = 0 := by
        rwa [tryTake?, Option.map_eq_none_iff, take?_eq_none_iff] at htake
      refine Or.inr (Or.inr ⟨?_, rfl⟩)
      show ¬ 0 < d.slots.free
      omega
    · exact Or.inl ⟨rfl, e, rfl, rfl⟩
  · by_cases hidle : d.slots.inUse = 0
    · have hgrant : d.slots.isIdle = true := decide_eq_true hidle
      simp only [hgrant]
      exact Or.inr (Or.inl ⟨trivial, hidle, rfl⟩)
    · have hbusy : d.slots.isIdle = false := decide_eq_false hidle
      simp only [hbusy]
      exact Or.inr (Or.inr ⟨hidle, rfl⟩)

@[simp] theorem visitors_keep (d : Desk) (name : String) : (d.keep name).visitors = d.visitors := by
  rw [keep]
  split <;> rfl

@[simp] theorem visits_keep (d : Desk) (name : String) : (d.keep name).visits = d.visits := by
  rw [keep]
  split <;> rfl

theorem visitors_tryTake? (h : d.tryTake? name = some e) : e.visitors = d.visitors := by
  obtain ⟨slots, -, rfl⟩ := Option.map_eq_some_iff.1 h
  exact visitors_keep _ name

theorem visits_tryTake? (h : d.tryTake? name = some e) : e.visits = d.visits := by
  obtain ⟨slots, -, rfl⟩ := Option.map_eq_some_iff.1 h
  exact visits_keep _ name

namespace Sound

/-- Some visitors may leave, and nobody else comes. -/
theorem of_sublist (h : Sound capacity d) (hbalanced : Balanced capacity 0 e)
    (hvisits : e.visits = d.visits) (hleft : e.visitors.Sublist d.visitors)
    (hattends : ∀ v ∈ e.visitors, e.Attends v) : Sound capacity e :=
  ⟨hbalanced, fun v hv ↦ hvisits ▸ h.issued v (hleft.subset hv),
    h.apart.sublist (hleft.map _), hattends⟩

/-- The visitors with one number are one visitor. -/
theorem eq_of_number (h : Sound capacity d) (hv : v ∈ d.visitors) (hw : w ∈ d.visitors)
    (hnumber : v.number = w.number) : v = w :=
  List.inj_on_of_nodup_map h.apart hv hw hnumber

theorem tryTake? (h : Sound capacity d) (he : d.tryTake? name = some e) : Sound capacity e := by
  have hvisitors := visitors_tryTake? he
  refine h.of_sublist (h.balanced.tryTake? he) (visits_tryTake? he) (by rw [hvisitors]) fun v hv ↦ ?_
  rw [hvisitors] at hv
  exact (h.attends v hv).tryTake? he

theorem giveBack (h : Sound capacity d) (name : String) : Sound capacity (d.giveBack name).2 := by
  rw [Desk.giveBack]
  split
  · next hname =>
    exact h.of_sublist (h.balanced.unname hname).release rfl (.refl _) fun v hv ↦
      Attends.of_release (d := { d with held := d.held.erase name }) (h.attends v hv).expects
  · exact h

theorem receive (h : Sound capacity d) (name : String) (wish : Wish) :
    Sound capacity (d.receive name wish) := by
  have hnew : ∀ v ∈ d.visitors, v.number ≠ d.visits := fun v hv ↦ Nat.ne_of_lt (h.issued v hv)
  refine ⟨h.balanced.of_eq rfl rfl, ?_, ?_, ?_⟩
  · show ∀ v ∈ d.visitors ++ [(⟨d.visits, name, wish⟩ : Visitor)], v.number < d.visits + 1
    intro v hv
    rcases List.mem_append.1 hv with hv | hv
    · exact Nat.lt_succ_of_lt (h.issued v hv)
    · rw [List.mem_singleton.1 hv]
      exact Nat.lt_succ_self _
  · show ((d.visitors ++ [(⟨d.visits, name, wish⟩ : Visitor)]).map Visitor.number).Nodup
    rw [List.map_append, List.map_singleton, List.nodup_append]
    refine ⟨h.apart, by simp, ?_⟩
    intro n hn m hm
    obtain ⟨v, hv, rfl⟩ := List.mem_map.1 hn
    rw [List.mem_singleton.1 hm]
    exact hnew v hv
  · show ∀ v ∈ d.visitors ++ [(⟨d.visits, name, wish⟩ : Visitor)],
      Attends { d with scheduler := d.scheduler.wake d.visits } v
    intro v hv
    rcases List.mem_append.1 hv with hv | hv
    · exact (h.attends v hv).wake d.visits
    · rw [List.mem_singleton.1 hv]
      exact Or.inl (Scheduler.mem_ready_wake.2 (Or.inr rfl))

end Sound

/-- Calls off the task with a number, wherever it stands. -/
def dismiss (d : Desk) (number : Nat) : Desk :=
  { d with
    visitors := d.visitors.filter (·.number ≠ number)
    scheduler := (d.scheduler.forget number).take number }

/-- What is called off by a name is the task that came last under it. -/
theorem callOff_eq (d : Desk) (name : String) :
    ∃ progress latest, d.callOff name = { d with progress, latest } ∨
      ∃ number, d.callOff name = { d.dismiss number with progress, latest } := by
  rw [callOff]
  dsimp only
  split
  · next number _ => exact ⟨_, _, Or.inr ⟨number, rfl⟩⟩
  · exact ⟨_, d.latest, Or.inl rfl⟩

namespace Sound

theorem dismiss (h : Sound capacity d) (number : Nat) : Sound capacity (d.dismiss number) := by
  refine h.of_sublist (h.balanced.of_eq rfl rfl) rfl List.filter_sublist fun v hv ↦ ?_
  obtain ⟨hv, hne⟩ := List.mem_filter.1 hv
  have hne : v.number ≠ number := of_decide_eq_true hne
  exact ((h.attends v hv).forget_of_ne hne).take_of_ne hne

theorem callOff (h : Sound capacity d) (name : String) : Sound capacity (d.callOff name) := by
  obtain ⟨progress, latest, hsame | ⟨number, hgone⟩⟩ := d.callOff_eq name
  · rw [hsame]
    exact ⟨h.balanced.of_eq rfl rfl, h.issued, h.apart, h.attends⟩
  · have hdismiss := h.dismiss number
    rw [hgone]
    exact ⟨hdismiss.balanced.of_eq rfl rfl, hdismiss.issued, hdismiss.apart, hdismiss.attends⟩

/-- The turn of a task that is ready. -/
theorem turn (h : Sound capacity d) (number : Nat) :
    Sound capacity (Desk.turn number (d.attending number)) := by
  rw [Desk.turn]
  split
  · next v hfind =>
    have hv : v ∈ d.visitors := List.mem_of_find?_eq_some hfind
    obtain rfl : v.number = number := by simpa using List.find?_some hfind
    -- While it has its turn, it neither waits nor is ready; all others attend.
    set x := d.attending v.number
    have hbalanced : Balanced capacity 0 x := h.balanced.of_eq rfl rfl
    have hothers : ∀ w ∈ d.visitors, w.number ≠ v.number → x.Attends w := fun w hw hne ↦
      (h.attends w hw).take_of_ne hne
    rcases look_cases x v with ⟨-, e, he, hlook⟩ | ⟨-, -, hlook⟩ | ⟨hclosed, hlook⟩
    · rw [hlook]
      have hvisits : e.visits = x.visits := visits_tryTake? he
      have hvisitors : e.visitors = x.visitors := visitors_tryTake? he
      refine h.of_sublist ((hbalanced.tryTake? he).of_eq rfl rfl) hvisits ?_ ?_
      · show (e.visitors.filter _).Sublist d.visitors
        rw [hvisitors]
        exact List.filter_sublist
      · intro w hw
        obtain ⟨hw, hne⟩ := List.mem_filter.1 (show w ∈ e.visitors.filter _ from hw)
        rw [hvisitors] at hw
        have hattends : e.Attends w := (hothers w hw (of_decide_eq_true hne)).tryTake? he
        exact hattends
    · rw [hlook]
      refine h.of_sublist (hbalanced.of_eq rfl rfl) rfl List.filter_sublist fun w hw ↦ ?_
      obtain ⟨hw, hne⟩ := List.mem_filter.1 hw
      exact hothers w hw (of_decide_eq_true hne)
    · rw [hlook]
      refine h.of_sublist (hbalanced.of_eq rfl rfl) rfl (.refl _) fun w hw ↦ ?_
      by_cases hne : w.number = v.number
      · obtain rfl := h.eq_of_number hw hv hne
        exact Or.inr ⟨Scheduler.mem_waiting_listen.2 (Or.inr ⟨rfl, rfl⟩), hclosed⟩
      · exact (hothers w hw hne).listen v.number
  · next hnone =>
    refine h.of_sublist (h.balanced.of_eq rfl rfl) rfl (.refl _) fun w hw ↦ ?_
    have hne : w.number ≠ number := by
      simpa using List.find?_eq_none.1 hnone w hw
    exact (h.attends w hw).take_of_ne hne

end Sound

/-! ### Callers -/

/-- What a caller may do. A holder that is lost gives its slot back like any other. -/
inductive Act where
  | tryTake (name : String)
  | come (name : String) (wish : Wish)
  | callOff (name : String)
  | dismiss (number : Nat)
  | giveBack (name : String)
  deriving DecidableEq, Inhabited

/-- A desk after a caller has acted. -/
def act : Act → Desk → Desk
  | .tryTake name, d => (d.tryTake? name).getD d
  | .come name wish, d => d.receive name wish
  | .callOff name, d => d.callOff name
  | .dismiss number, d => d.dismiss number
  | .giveBack name, d => (d.giveBack name).2

/-- **One happening.** -/
theorem Sound.happen (h : Sound capacity d) (x : Tasked.Happening Act Nat) :
    Sound capacity (Tasked.happen act d x) := by
  cases x with
  | act a =>
    cases a with
    | tryTake name =>
      show Sound capacity ((d.tryTake? name).getD d)
      rcases he : d.tryTake? name with - | e
      · exact h
      · exact h.tryTake? he
    | come name wish => exact h.receive name wish
    | callOff name => exact h.callOff name
    | dismiss number => exact h.dismiss number
    | giveBack name => exact h.giveBack name
  | turn number =>
    rw [Tasked.happen]
    split
    · exact h.turn number
    · exact h
  | pass tick =>
    exact ⟨h.balanced.of_eq rfl rfl, h.issued, h.apart, fun v hv ↦ (h.attends v hv).ringAt _⟩

theorem sound_unfold {slots : Slots} (h : create capacity = .ok slots)
    (course : List (Tasked.Happening Act Nat)) :
    Sound capacity (Tasked.unfold act { slots } course) :=
  Tasked.unfold_induction (fun _ x hs ↦ hs.happen x) (sound_of_create h) course

/-- A caller of the program acts, and then every task runs that can. -/
theorem unfolds_serve (d : Desk) (r : Request) : Tasked.Unfolds act d (d.serve r).2 := by
  have hsettle : ∀ e : Desk, Tasked.Unfolds act e (Tasked.settle Tasked.patience e) := fun e ↦
    .settle _ e
  have hact : ∀ a, Tasked.Unfolds act d (Tasked.settle Tasked.patience (act a d)) := fun a ↦
    (Tasked.Unfolds.single (.act a)).trans (hsettle _)
  cases r with
  | tryTake name =>
    have htry := hact (.tryTake name)
    rw [act] at htry
    rw [serve.eq_def]
    dsimp only
    rcases he : d.tryTake? name with - | e <;> rw [he] at htry <;> exact htry
  | take name => exact hact (.come name .slot)
  | awaitIdle name => exact hact (.come name .idle)
  | callOff name => exact hact (.callOff name)
  | giveBack name => exact hact (.giveBack name)
  | loseHolder name => exact hact (.giveBack name)
  | look => exact hsettle d

theorem unfolds_serveAll {d e : Desk} {requests : List Request} {reply : Reply}
    (h : (reply, e) ∈ d.serveAll requests) : Tasked.Unfolds act d e := by
  induction requests generalizing d with
  | nil => exact absurd h List.not_mem_nil
  | cons r rest ih =>
    rcases List.mem_cons.1 h with h | h
    · rw [show e = (d.serve r).2 from congrArg Prod.snd h]
      exact unfolds_serve d r
    · exact (unfolds_serve d r).trans (ih h)

/-! ### The pool between two happenings -/

/-- What a slot comes to that is taken under a name: it is held and counted. A slot that was held
under the name before makes room for it and is given back. -/
structure Takes (d : Desk) (name : String) (e : Desk) : Prop where
  holds : name ∈ e.held
  held : e.held = if name ∈ d.held then d.held else d.held ++ [name]
  inUse : e.slots.inUse = d.slots.inUse + if name ∈ d.held then 0 else 1

/-- What holds of a pool between any two happenings. -/
structure InOrder (capacity : Nat) (d : Desk) : Prop where
  /-- The slots in use are those that are held. -/
  inUse : d.slots.inUse = d.held.length
  /-- The two counts add up to the capacity, -/
  total : d.slots.inUse + d.slots.free = d.slots.capacity ∧ d.slots.capacity = capacity
  /-- so that no more slots are in use than there are. -/
  within : d.slots.inUse ≤ capacity
  /-- A slot can be taken at once exactly if one is free, -/
  takes : ∀ name, (d.tryTake? name).isSome ↔ 0 < d.slots.free
  /-- and it is then held and in use. -/
  taken : ∀ name e, d.tryTake? name = some e → d.Takes name e
  /-- A slot that is given back was in use: one slot less is. -/
  returned : ∀ name ∈ d.held, (d.giveBack name).2.slots.inUse + 1 = d.slots.inUse ∧
    (d.giveBack name).2.held = d.held.erase name
  /-- Who comes for something is there and ready, and takes nothing before its turn. -/
  arrived : ∀ name wish,
    (d.receive name wish).visitors = d.visitors ++ [⟨d.visits, name, wish⟩] ∧
      d.visits ∈ (d.receive name wish).scheduler.ready ∧
      (d.receive name wish).slots = d.slots ∧ (d.receive name wish).held = d.held
  /-- Who has its turn goes home exactly if there is something for it. -/
  served : ∀ v ∈ d.visitors, v.number ∈ d.scheduler.ready →
    (v ∈ (Tasked.happen act d (.turn v.number)).visitors ↔ ¬ v.wish.Open d.slots)
  /-- Who has waited for a slot and finds one takes it, -/
  granted : ∀ v ∈ d.visitors, v.number ∈ d.scheduler.ready → v.wish = .slot → 0 < d.slots.free →
    d.Takes v.name (Tasked.happen act d (.turn v.number))
  /-- and no other turn takes a slot or gives one back. -/
  spared : ∀ number,
    (∀ v ∈ d.visitors, v.number = number → v.wish = .slot → d.slots.free = 0) →
    (Tasked.happen act d (.turn number)).slots = d.slots ∧
      (Tasked.happen act d (.turn number)).held = d.held
  /-- When nobody is ready, who waits for a slot waits since none is free, and who waits for an idle
  pool waits since a slot is in use. -/
  quiet : d.scheduler.ready = [] → ∀ v ∈ d.visitors,
    (v.wish = .slot → d.slots.free = 0) ∧ (v.wish = .idle → 0 < d.slots.inUse)
  /-- A task that is called off is gone, and nobody else is; it leaves the slots as they are, and
  those who hold them. -/
  gone : ∀ number v, v ∈ (d.dismiss number).visitors ↔ v ∈ d.visitors ∧ v.number ≠ number
  dismissed : ∀ number, (d.dismiss number).slots = d.slots ∧ (d.dismiss number).held = d.held
  calledOff : ∀ name, (d.callOff name).slots = d.slots ∧ (d.callOff name).held = d.held

/-- A slot is taken at once exactly if one is free. -/
theorem isSome_tryTake? (d : Desk) (name : String) :
    (d.tryTake? name).isSome ↔ 0 < d.slots.free := by
  rw [tryTake?, Option.isSome_map, Option.isSome_iff_ne_none, Ne, take?_eq_none_iff]
  exact Nat.pos_iff_ne_zero.symm

/-- A slot that is taken at once is held and in use. -/
theorem takes_of_tryTake? (h : d.tryTake? name = some e) : d.Takes name e := by
  obtain ⟨slots, hslots, rfl⟩ := Option.map_eq_some_iff.1 h
  have huse := inUse_of_take? hslots
  rw [keep]
  by_cases hname : name ∈ d.held
  · rw [if_pos (show name ∈ ({ d with slots } : Desk).held from hname)]
    refine ⟨hname, (if_pos hname).symm, ?_⟩
    show slots.inUse - 1 = _
    rw [if_pos hname]
    omega
  · rw [if_neg (show name ∉ ({ d with slots } : Desk).held from hname)]
    refine ⟨List.mem_append_right _ (List.mem_singleton_self _), (if_neg hname).symm, ?_⟩
    show slots.inUse = _
    rw [if_neg hname, huse]

/-- A task that is ready looks when it has its turn. -/
theorem happen_turn (h : Sound capacity d) (hv : v ∈ d.visitors)
    (hready : v.number ∈ d.scheduler.ready) :
    Tasked.happen act d (.turn v.number) = (d.attending v.number).look v := by
  have hfind : d.visitors.find? (·.number = v.number) = some v := by
    obtain ⟨w, hw⟩ := Option.isSome_iff_exists.1
      (List.find?_isSome.2 ⟨v, hv, decide_eq_true rfl⟩ :
        (d.visitors.find? (·.number = v.number)).isSome)
    have hnumber : w.number = v.number := by simpa using List.find?_some hw
    rw [hw, h.eq_of_number (List.mem_of_find?_eq_some hw) hv hnumber]
  rw [Tasked.happen, if_pos (show v.number ∈ (Tasked.scheduler d).ready from hready)]
  show turn v.number (d.attending v.number) = _
  rw [turn, show (d.attending v.number).visitors = d.visitors from rfl, hfind]

/-- A task that is ready and has its turn goes home exactly if there is something for it. -/
theorem mem_visitors_turn (h : Sound capacity d) (hv : v ∈ d.visitors)
    (hready : v.number ∈ d.scheduler.ready) :
    v ∈ (Tasked.happen act d (.turn v.number)).visitors ↔ ¬ v.wish.Open d.slots := by
  have hgone : ∀ x : Desk, v ∉ (x.grant v).visitors := fun x hmem ↦
    absurd rfl (of_decide_eq_true (List.mem_filter.1 hmem).2)
  rw [happen_turn h hv hready]
  rcases look_cases (d.attending v.number) v with
    ⟨hwish, e, he, hlook⟩ | ⟨hwish, hidle, hlook⟩ | ⟨hclosed, hlook⟩
  · rw [hlook, hwish]
    have hfree := (isSome_tryTake? _ v.name).1 (Option.isSome_of_eq_some he)
    exact ⟨fun hmem ↦ absurd hmem (hgone e), fun hclosed ↦ absurd hfree hclosed⟩
  · rw [hlook, hwish]
    exact ⟨fun hmem ↦ absurd hmem (hgone _), fun hclosed ↦ absurd hidle hclosed⟩
  · rw [hlook]
    exact ⟨fun _ ↦ hclosed, fun _ ↦ hv⟩

/-- A task that has waited for a slot and finds one takes it. -/
theorem takes_turn (h : Sound capacity d) (hv : v ∈ d.visitors)
    (hready : v.number ∈ d.scheduler.ready) (hwish : v.wish = .slot) (hfree : 0 < d.slots.free) :
    d.Takes v.name (Tasked.happen act d (.turn v.number)) := by
  rw [happen_turn h hv hready]
  rcases look_cases (d.attending v.number) v with ⟨-, e, he, hlook⟩ | ⟨hidle, -⟩ | ⟨hclosed, -⟩
  · have htakes := takes_of_tryTake? he
    rw [hlook]
    exact ⟨htakes.holds, htakes.held, htakes.inUse⟩
  · exact absurd (hwish.symm.trans hidle) (by simp)
  · rw [hwish] at hclosed
    exact absurd hfree hclosed

/-- A turn leaves the slots as they are, and those who hold them, unless a task finds a slot that has
waited for one. -/
theorem slots_turn (d : Desk) (number : Nat)
    (hnone : ∀ v ∈ d.visitors, v.number = number → v.wish = .slot → d.slots.free = 0) :
    (Tasked.happen act d (.turn number)).slots = d.slots ∧
      (Tasked.happen act d (.turn number)).held = d.held := by
  rw [Tasked.happen]
  split
  · show (turn number (d.attending number)).slots = _ ∧ (turn number (d.attending number)).held = _
    rw [turn]
    split
    · next v hfind =>
      have hnumber : v.number = number := by simpa using List.find?_some hfind
      rcases look_cases (d.attending number) v with ⟨hwish, e, he, -⟩ | ⟨-, -, hlook⟩ | ⟨-, hlook⟩
      · have hfree := (isSome_tryTake? _ v.name).1 (Option.isSome_of_eq_some he)
        exact absurd (hnone v (List.mem_of_find?_eq_some hfind) hnumber hwish)
          (Nat.pos_iff_ne_zero.1 hfree)
      · exact hlook ▸ ⟨rfl, rfl⟩
      · exact hlook ▸ ⟨rfl, rfl⟩
    · exact ⟨rfl, rfl⟩
  · exact ⟨rfl, rfl⟩

theorem slots_callOff (d : Desk) (name : String) :
    (d.callOff name).slots = d.slots ∧ (d.callOff name).held = d.held := by
  obtain ⟨progress, latest, h | ⟨number, h⟩⟩ := d.callOff_eq name <;> rw [h] <;> exact ⟨rfl, rfl⟩

theorem Sound.inOrder (h : Sound capacity d) : InOrder capacity d where
  inUse := h.balanced.inUse
  total := ⟨h.balanced.total.trans h.balanced.capacity.symm, h.balanced.capacity⟩
  within := Nat.le.intro h.balanced.total
  takes := d.isSome_tryTake?
  taken _ _ := takes_of_tryTake?
  returned name hname := by
    have hback := (h.giveBack name).balanced.inUse
    have huse := h.balanced.inUse
    have hlength := List.length_erase_of_mem hname
    have hpos := List.length_pos_of_mem hname
    have hheld : (d.giveBack name).2.held = d.held.erase name := by
      rw [Desk.giveBack, if_pos hname]
      rfl
    refine ⟨?_, hheld⟩
    rw [hheld] at hback
    omega
  arrived _ _ := ⟨rfl, Scheduler.mem_ready_wake.2 (Or.inr rfl), rfl, rfl⟩
  served _ := mem_visitors_turn h
  granted _ := takes_turn h
  spared := d.slots_turn
  quiet hquiet v hv := by
    rcases h.attends v hv with hready | ⟨-, hclosed⟩
    · rw [hquiet] at hready
      exact absurd hready List.not_mem_nil
    · refine ⟨fun hwish ↦ ?_, fun hwish ↦ ?_⟩
      · rw [hwish] at hclosed
        exact Nat.eq_zero_of_not_pos hclosed
      · rw [hwish] at hclosed
        exact Nat.pos_of_ne_zero hclosed
  gone number v := by simp [Desk.dismiss]
  dismissed _ := ⟨rfl, rfl⟩
  calledOff := d.slots_callOff

/-- **The pool of the program is in order** after each of its requests. -/
theorem inOrder_serveAll {slots : Slots} (h : create capacity = .ok slots)
    {requests : List Request} {reply : Reply} {e : Desk}
    (he : (reply, e) ∈ serveAll { slots } requests) : InOrder capacity e := by
  obtain ⟨course, rfl⟩ := unfolds_serveAll he
  exact (sound_unfold h course).inOrder

end Desk

end PullConsumer.Slots
