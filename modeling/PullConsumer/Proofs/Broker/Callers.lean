import PullConsumer.Broker.Desk
import PullConsumer.Proofs.Broker.Looks
import PullConsumer.Proofs.Broker.Traffic
import PullConsumer.Proofs.Tasks

/-!
# Callers at a desk

At a desk any number of fetches are under way at once, each as a task of its own, while other
callers declare, publish and settle. Whatever the scheduler makes of that, each of them holds the
broker alone for as long as it uses it: what becomes of the broker is a list of operations
(`Serves`), and what these hand out is what the fetches are answered with, every delivery once. So
whatever holds after every list of operations holds of the broker of a desk.
-/

namespace PullConsumer.Broker

/-- The delivery that a fetch has ended with. -/
def Errand.delivery? : Errand → Option Delivery
  | finished _ (.ok d) => some d
  | _ => none

/-- The delivery that a look has found. -/
def Fetch.Progress.delivery? : Progress → Option Delivery
  | finished (.ok d) => some d
  | _ => none

theorem handed_look (b : Broker) (f : Fetch) (now : Nat) :
    (b.handed (.look f now)).map Flight.delivery = (f.look now b).1.delivery?.toList := by
  rw [handed]
  cases (f.look now b).1 with
  | waiting => rfl
  | finished answer => cases answer <;> rfl

namespace Desk

/-- The deliveries that the fetches of a desk have ended with. -/
def received (d : Desk) : List Delivery := d.errands.filterMap Errand.delivery?

/-- What has become of a desk: its broker was used by operations, and what these have handed out,
fetches have received. -/
structure Serves (d : Desk) (ops : List Operation) (e : Desk) : Prop where
  broker : e.broker = d.broker.after ops
  received : e.received.Perm
    (d.received ++ (along Broker.handed d.broker ops).map Flight.delivery)

/-- A desk may come to another one. -/
def Leads (d e : Desk) : Prop := ∃ ops, Serves d ops e

variable {d e : Desk} {number : Nat}

/-- Nobody uses the broker. -/
theorem Leads.aside (hbroker : e.broker = d.broker) (hreceived : e.received = d.received) :
    Leads d e :=
  ⟨[], hbroker, by simp [hreceived, along]⟩

theorem Leads.refl (d : Desk) : Leads d d := .aside rfl rfl

theorem Leads.trans {f : Desk} (h : Leads d e) (h' : Leads e f) : Leads d f := by
  obtain ⟨ops, hbroker, hreceived⟩ := h
  obtain ⟨more, hbroker', hreceived'⟩ := h'
  refine ⟨ops ++ more, ?_, ?_⟩
  · rw [hbroker', hbroker, after_append]
  · rw [along_append, List.map_append, ← hbroker, ← List.append_assoc]
    exact hreceived'.trans (hreceived.append_right _)

/-- Somebody uses the broker and is handed nothing. -/
theorem Leads.single (op : Operation) (hbroker : e.broker = d.broker.operate op)
    (hhanded : d.broker.handed op = []) (hreceived : e.received = d.received) : Leads d e :=
  ⟨[op], hbroker, by simp [hreceived, along, hhanded]⟩

/-! ### Fetches -/

/-- A fetch that had not ended ends with a delivery, or goes on without one. -/
theorem received_put {old : Errand} (h : d.errands[number]? = some old)
    (hold : old.delivery? = none) (new : Errand) :
    (d.put number new).received.Perm (d.received ++ new.delivery?.toList) := by
  obtain ⟨hlt, rfl⟩ := List.getElem?_eq_some_iff.1 h
  obtain ⟨before, after, hsplit, -, hset⟩ : ∃ before after,
      d.errands = before ++ d.errands[number] :: after ∧ before.length = number ∧
        d.errands.set number new = before ++ new :: after := List.exists_of_set hlt
  rw [received, received, put, hset]
  conv_rhs => rw [hsplit]
  simp only [List.filterMap_append, List.filterMap_cons, hold]
  cases new.delivery? with
  | none => simp
  | some x => exact List.perm_middle.trans (List.perm_append_singleton ..).symm

theorem received_finish {old : Errand} {answer : Except BrokerError Delivery}
    (h : d.errands[number]? = some old) (hold : old.delivery? = none) :
    (d.finish number answer).received.Perm
      (d.received ++ (Fetch.Progress.finished answer).delivery?.toList) := by
  have hput := received_put h hold (.finished d.scheduler.now answer)
  have hanswer : (Errand.finished d.scheduler.now answer).delivery? =
      (Fetch.Progress.finished answer).delivery? := by cases answer <;> rfl
  rw [hanswer] at hput
  rw [finish]
  split
  · exact hput
  · exact hput

theorem broker_finish (d : Desk) (number : Nat) (answer : Except BrokerError Delivery) :
    (d.finish number answer).broker = d.broker := by
  rw [finish]
  split <;> rfl

/-- What a look has found is taken up. -/
theorem follow_spec {old : Errand} (h : d.errands[number]? = some old) (hold : old.delivery? = none)
    (f : Fetch) (r : Fetch.Progress × Broker) :
    (d.follow number f r).broker = r.2 ∧
      (d.follow number f r).received.Perm (d.received ++ r.1.delivery?.toList) := by
  obtain ⟨progress, b⟩ := r
  rw [follow]
  cases progress with
  | waiting => exact ⟨rfl, received_put h hold (.waiting f)⟩
  | finished answer => exact ⟨broker_finish .., received_finish (d := { d with broker := b }) h hold⟩

/-- A fetch looks. -/
theorem leads_look {old : Errand} (h : d.errands[number]? = some old) (hold : old.delivery? = none)
    (f : Fetch) : Leads d (d.follow number f (f.look d.scheduler.now d.broker)) := by
  obtain ⟨hbroker, hreceived⟩ := follow_spec h hold f (f.look d.scheduler.now d.broker)
  refine ⟨[.look f d.scheduler.now], hbroker, ?_⟩
  rw [along, along, List.append_nil, handed_look]
  exact hreceived

/-- A fetch asks, and looks for the first time. -/
theorem leads_firstLook {old : Errand} (h : d.errands[number]? = some old)
    (hold : old.delivery? = none) (f : Fetch) :
    Leads d (d.follow number f (f.firstLook d.scheduler.now d.broker)) := by
  have hask : Leads d { d with broker := d.broker.beginFetch.2 } := .single .ask rfl rfl rfl
  -- To ask is what begins a fetch.
  rcases f.firstLook_cases d.scheduler.now d.broker with ⟨cause, -, hlook⟩ | ⟨-, hlook⟩
  · obtain ⟨hbroker, hreceived⟩ := follow_spec h hold f (f.firstLook d.scheduler.now d.broker)
    rw [hlook] at hbroker hreceived ⊢
    exact ⟨[.ask], hbroker, hreceived⟩
  · rw [hlook]
    exact hask.trans (leads_look (d := { d with broker := d.broker.beginFetch.2 }) h hold f)

-- For any `start`, since the arithmetic of a deadline would be carried out in unary when the proof is
-- checked.
/-- A fetch that is woken begins or looks again. -/
theorem leads_woken (start : Nat → ConsumerId → Duration → Except Crash Fetch) (number : Nat)
    (d : Desk) : Leads d (match d.errands[number]? with
      | some (Errand.fresh consumer timeout) =>
        match start d.scheduler.now consumer timeout with
        | .ok f => d.follow number f (f.firstLook d.scheduler.now d.broker)
        | .error cause => d.put number (.crashed cause)
      | some (Errand.waiting f) => d.follow number f (f.look d.scheduler.now d.broker)
      | _ => d) := by
  split
  · next consumer timeout h =>
    split
    · next f _ => exact leads_firstLook h rfl f
    · next cause _ => exact ⟨[], rfl, received_put h rfl (.crashed cause)⟩
  · next f h => exact leads_look h rfl f
  · exact .refl d

/-- **The turn of a fetch.** -/
theorem leads_turn (number : Nat) (d : Desk) : Leads d (turn number d) := by
  have hforget : Leads d { d with scheduler := d.scheduler.forget number } := .aside rfl rfl
  exact hforget.trans (leads_woken Fetch.start number _)

theorem keeps_leads : Tasked.Keeps Leads where
  refl := .refl
  trans := .trans
  turn := leads_turn
  pass _ _ _ := .aside rfl rfl

/-! ### Requests -/

theorem leads_start (d : Desk) (consumer : ConsumerId) (timeout : Duration) :
    Leads d (d.start consumer timeout).2 :=
  .aside rfl (by simp [received, start, Errand.delivery?])

/-- **A request is carried out by operations.** -/
theorem leads_perform (d : Desk) (r : Request) : Leads d (d.perform r).2 := by
  cases r with
  | declare c filter => exact .single (.supply (.declare c filter)) rfl rfl rfl
  | publish m stamp => exact .single (.supply (.publish m stamp)) rfl rfl rfl
  | bind x => exact .single (.bind x) rfl rfl rfl
  | fetch c timeout =>
    have hrun := (leads_start d c timeout).trans
      (keeps_leads.runUntil (isOver (d.start c timeout).1) Tasked.patience _)
    rw [perform]
    dsimp only
    split <;> exact hrun
  | fetchAside name c timeout => exact (leads_start d c timeout).trans (.aside rfl rfl)
  | advance ticks => exact keeps_leads.runTo _ _ d
  | settle h x =>
    have hsettle : Leads d { d with broker := (d.broker.settle h x).broker } :=
      .single (.settle h x) rfl rfl rfl
    rw [perform]
    dsimp only
    split
    · exact hsettle.trans (.aside rfl rfl)
    · exact hsettle
  | enqueuedAt h => exact .refl d
  | failFetch cause => exact .single (.supply (.failFetch cause)) rfl rfl rfl
  | failBind cause => exact .single (.supply (.failBind cause)) rfl rfl rfl
  | failSettle cause => exact .single (.supply (.failSettle cause)) rfl rfl rfl
  | pending c => exact .refl d
  | state => exact .refl d

theorem leads_serve (d : Desk) (r : Request) : Leads d (d.serve r).2 :=
  ((leads_perform d r).trans (keeps_leads.settle _ _)).trans (.aside rfl rfl)

/-- **Whatever callers ask of a desk**, its broker comes to what some operations make of it, and
what these have handed out is what fetches have received. -/
theorem exists_serves (d : Desk) (requests : List Request) :
    ∃ ops, Serves d ops (requests.foldl (fun d r ↦ (d.serve r).2) d) := by
  suffices h : Leads d (requests.foldl (fun d r ↦ (d.serve r).2) d) from h
  induction requests generalizing d with
  | nil => exact .refl d
  | cons r rest ih => exact (leads_serve d r).trans (ih _)

end Desk

end PullConsumer.Broker
