import PullConsumer.Proofs.Broker.Traffic
import PullConsumer.Proofs.Supervisor.Deeds

/-!
# How a supervisor uses its broker

Pullers bind and fetch, jobs settle, and others supply. Each deed uses the broker once at most, and
if it does the journal tells of it: what the operations hand out is what the journal calls fetched,
and what they settle is what it calls settled without a failure, in the same order
(`Runs.exists_uses`). So whatever holds after every list of operations holds of the broker of a
supervisor, and its journal can be read as what the broker has told, as long as strangers leave the
broker alone.
-/

namespace PullConsumer.Supervisor

open Broker (Operation after along handed settled)

namespace Entry

/-- The handle of a delivery that a puller was given. -/
def fetched? : Entry → Option Handle
  | fetched _ _ h => some h
  | _ => none

/-- A settlement that has succeeded. -/
def settled? : Entry → Option (Handle × Settlement)
  | settled _ h x none => some (h, x)
  | _ => none

end Entry

namespace Books

variable {b b' : Books} {α : Type}

/-- What a journal tells of some kind, the first one first. -/
def tellings (b : Books) (tell : Entry → Option α) : List α :=
  b.journal.reverse.filterMap fun entry ↦ tell entry.2

theorem tellings_note (b : Books) (e : Entry) (tell : Entry → Option α) :
    (b.note e).tellings tell = b.tellings tell ++ (tell e).toList := by
  rw [tellings, note, List.reverse_cons, List.filterMap_append]
  cases h : tell e <;> simp [tellings, h]

/-- What has become of the books: the broker was used by operations, and the journal tells what these
have handed out and settled. -/
structure Uses (b : Books) (ops : List Operation) (b' : Books) : Prop where
  broker : b'.broker = b.broker.after ops
  fetched : b'.tellings Entry.fetched? =
    b.tellings Entry.fetched? ++ (along handed b.broker ops).map (·.delivery.handle)
  settled : b'.tellings Entry.settled? = b.tellings Entry.settled? ++ along settled b.broker ops

/-- The books may come to others. -/
def Leads (b b' : Books) : Prop := ∃ ops, Uses b ops b'

/-- Nobody uses the broker. -/
theorem Leads.aside (hbroker : b'.broker = b.broker)
    (hfetched : b'.tellings Entry.fetched? = b.tellings Entry.fetched?)
    (hsettled : b'.tellings Entry.settled? = b.tellings Entry.settled?) : Leads b b' :=
  ⟨[], hbroker, by simp [hfetched, along], by simp [hsettled, along]⟩

theorem Leads.note {e : Entry} (hfetched : e.fetched? = none) (hsettled : e.settled? = none) :
    Leads b (b.note e) :=
  .aside rfl (by simp [tellings_note, hfetched]) (by simp [tellings_note, hsettled])

theorem Leads.trans {b'' : Books} (h : Leads b b') (h' : Leads b' b'') : Leads b b'' := by
  obtain ⟨ops, hbroker, hfetched, hsettled⟩ := h
  obtain ⟨more, hbroker', hfetched', hsettled'⟩ := h'
  rw [hbroker] at hbroker' hfetched' hsettled'
  refine ⟨ops ++ more, ?_, ?_, ?_⟩
  · rw [hbroker', Broker.after_append]
  · rw [Broker.along_append, List.map_append, ← List.append_assoc, ← hfetched, hfetched']
  · rw [Broker.along_append, ← List.append_assoc, ← hsettled, hsettled']

/-- The broker is used once, and nothing is handed out or settled. -/
theorem Leads.single (op : Operation) (hbroker : b'.broker = b.broker.operate op)
    (hhanded : b.broker.handed op = []) (hsettled : b.broker.settled op = [])
    (hjournal : b'.journal = b.journal) : Leads b b' :=
  ⟨[op], hbroker, by simp [tellings, hjournal, along, hhanded],
    by simp [tellings, hjournal, along, hsettled]⟩

theorem leads_measure (b : Books) (sub : Nat) (m : Measurement) : Leads b (b.measure sub m) :=
  .aside rfl rfl rfl

theorem leads_publishFor (b : Books) (sub : Nat) (e : Event) : Leads b (b.publishFor sub e) :=
  .note rfl rfl

theorem leads_reportResult (b : Books) (sub : Nat) (r : HandlerResult) :
    Leads b (b.reportResult sub r) := by
  rw [reportResult]
  split
  · exact (leads_measure ..).trans (leads_publishFor ..)
  · exact .aside rfl rfl rfl

theorem leads_reportSettled (b : Books) (sub : Nat) (outcome : Outcome) :
    Leads b (b.reportSettled sub outcome) := by
  rw [reportSettled]
  split
  · exact .aside rfl rfl rfl
  · exact leads_publishFor ..

theorem leads_reportUnsettled (b : Books) (sub : Nat) (x : Settlement) (reason : String) :
    Leads b (b.reportUnsettled sub x reason) := by
  rw [reportUnsettled]
  exact (leads_measure ..).trans (leads_publishFor ..)

/-- A delivery is taken and its job begins. -/
theorem leads_receive {n : Nat} {p : Puller} {c : ConsumerId} {d : Delivery} {x : Broker}
    (htake : b.broker.take? c = .ok (some (d, x))) :
    Leads b (({ b with broker := x }.beginJob n p d).setPhase n .head) := by
  have hlook : (⟨c, .zero, 0⟩ : Broker.Fetch).look 0 b.broker = (.finished (.ok d), x) := by
    rw [Broker.Fetch.look, htake]
  have hhanded : b.broker.handed (.look ⟨c, .zero, 0⟩ 0) = [⟨c, d⟩] := by
    rw [handed, hlook]
  refine ⟨[.look ⟨c, .zero, 0⟩ 0], ?_, ?_, ?_⟩
  · show x = (Broker.Fetch.look ⟨c, .zero, 0⟩ 0 b.broker).2
    rw [hlook]
  · rw [along, along, hhanded]
    exact tellings_note ..
  · exact tellings_note ..

/-- A settlement succeeds. -/
theorem leads_settle {k : Nat} {h : Handle} {x : Settlement}
    (hok : (b.broker.settle h x).result = .ok ()) :
    Leads b ({ b with broker := (b.broker.settle h x).broker }.note (.settled k h x none)) := by
  have hsettled : b.broker.settled (.settle h x) = [(h, x)] := by
    rw [settled, hok]
  refine ⟨[.settle h x], rfl, tellings_note .., ?_⟩
  rw [along, along, hsettled]
  exact tellings_note ..

/-- **A deed uses the broker once at most**, and the journal tells of it. -/
theorem leads_deed (h : Deed b b') : Leads b b' := by
  cases h with
  | bind x => exact .single (.bind x) rfl rfl rfl rfl
  | supply x => exact .single (.supply x) rfl rfl rfl rfl
  | ask _ _ =>
    have hask : Leads b { b with broker := b.broker.beginFetch.2 } := .single .ask rfl rfl rfl rfl
    exact hask.trans (.note rfl rfl)
  | receive _ _ htake => exact leads_receive htake
  | report _ => exact .note rfl rfl
  | fatal _ _ => exact .note rfl rfl
  | @gauge n p _ _ =>
    have hnote : Leads b (b.note (.gauge p.sub (b.inUse p.sub))) := .note rfl rfl
    exact hnote.trans (leads_measure ..)
  | @call j lag count phase _ _ _ _ =>
    have hnote : Leads b (b.note (.started j.number j.sub j.delivery.message count)) :=
      .note rfl rfl
    exact hnote.trans (.aside rfl rfl rfl)
  | @finish j r giveUpDue _ _ =>
    have hnote : Leads b (b.note (.ended j.number j.sub j.delivery.message j.count r)) :=
      .note rfl rfl
    exact ((hnote.trans (leads_measure ..)).trans (leads_reportResult ..)).trans
      (.aside rfl rfl rfl)
  | settle _ _ hok =>
    exact ((leads_settle hok).trans (leads_reportSettled ..)).trans (.aside rfl rfl rfl)
  | @fail j outcome answerDue giveUpDue reason _ _ _ =>
    have hnote : Leads b (b.note (.settled j.number j.delivery.handle outcome.settlement
      (some reason))) := .note rfl rfl
    exact (hnote.trans (leads_reportUnsettled ..)).trans (.aside rfl rfl rfl)
  | _ => exact .aside rfl rfl rfl

end Books

/-- **The broker of a supervisor is used by operations only**, and the journal tells what they have
handed out and settled, as long as nobody meddles. -/
theorem Runs.exists_uses {s t : State} (hrun : Runs own s t) : ∃ ops, s.books.Uses ops t.books := by
  suffices h : s.books.Leads t.books from h
  refine hrun.books_induction (P := fun b ↦ s.books.Leads b)
    (fun _ _ hdeed hb ↦ hb.trans (Books.leads_deed hdeed))
    (fun _ _ _ hb ↦ hb.trans (.aside rfl rfl rfl))
    (fun _ _ hmeddle _ ↦ absurd hmeddle (by simp [own, Move.isOwn])) (.aside rfl rfl rfl)

end PullConsumer.Supervisor
