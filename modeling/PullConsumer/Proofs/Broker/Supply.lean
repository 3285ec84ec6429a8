import PullConsumer.Proofs.Broker.Stock

/-!
# Supplying a broker

What can be brought to a broker by those who neither fetch nor settle: consumers are declared,
messages published, faults planted and taken away. A broker that has only been supplied has nothing
in flight and nothing settled (`Untouched`), and a supply at any later time brings nothing into the
stock but deliveries with new handles.
-/

namespace PullConsumer.Broker

/-- Something that is brought to a broker. -/
inductive Supply where
  | publish (message : Message) (stamp : Int)
  | declare (consumer : ConsumerId) (filter : String)
  | failFetch (cause : BrokerError)
  | failBind (cause : BrokerError)
  | failSettle (cause : Option BrokerError)

/-- A broker that was supplied. -/
def supply (b : Broker) : Supply → Broker
  | .publish m stamp => (b.publish m stamp).2
  | .declare c filter => b.declare c filter
  | .failFetch e => b.failNextFetch e
  | .failBind e => b.failNextBind e
  | .failSettle e => b.failSettlements e

/-- A broker that nobody has fetched from and nobody has settled with. -/
def Untouched (b : Broker) : Prop :=
  ∃ (redelivers : Bool) (supplies : List Supply), b = supplies.foldl supply { redelivers }

/-! ### What a supply leaves alone -/

@[simp] theorem redelivers_supply (b : Broker) (x : Supply) :
    (b.supply x).redelivers = b.redelivers := by
  cases x <;> rfl

@[simp] theorem inFlight_supply (b : Broker) (x : Supply) :
    (b.supply x).inFlight = b.inFlight := by
  cases x <;> rfl

@[simp] theorem flying_supply (b : Broker) (x : Supply) : (b.supply x).flying = b.flying := by
  rw [flying, inFlight_supply, flying]

@[simp] theorem acked_supply (b : Broker) (x : Supply) : (b.supply x).acked = b.acked := by
  cases x <;> rfl

@[simp] theorem nacked_supply (b : Broker) (x : Supply) : (b.supply x).nacked = b.nacked := by
  cases x <;> rfl

@[simp] theorem fetches_supply (b : Broker) (x : Supply) : (b.supply x).fetches = b.fetches := by
  cases x <;> rfl

theorem issued_le_supply (b : Broker) (x : Supply) : b.issued ≤ (b.supply x).issued := by
  cases x with
  | publish m stamp => exact issued_le_publish b m stamp
  | _ => exact Nat.le_refl _

/-- A delivery that comes to wait in a queue is a new one. -/
theorem mem_ready_supply {b : Broker} {x : Supply} {h : Handle} (hh : h ∈ (b.supply x).ready) :
    h ∈ b.ready ∨ ¬ b.Issued h := by
  cases x with
  | publish m stamp =>
    rcases List.mem_append.1 ((ready_publish b m stamp).subset hh) with hh | hh
    · exact Or.inl hh
    · exact Or.inr (not_issued_of_publish hh).1
  | declare c filter => exact Or.inl ((ready_declare b c filter).subset hh)
  | _ => exact Or.inl hh

theorem sound_supply {b : Broker} (h : b.Sound) (x : Supply) : (b.supply x).Sound := by
  cases x with
  | publish m stamp => exact sound_publish h m stamp
  | declare c filter => exact sound_declare h c filter
  | _ => exact ⟨h.sorted, h.consumers, h.once, h.issued⟩

/-! ### Brokers that were only supplied -/

/-- What holds of an empty broker and is kept by supplies holds of a broker that was only
supplied. -/
theorem Untouched.induction {P : Broker → Prop} {b : Broker} (h : b.Untouched)
    (empty : ∀ redelivers : Bool, P { redelivers })
    (supplied : ∀ b x, P b → P (supply b x)) : P b := by
  obtain ⟨redelivers, supplies, rfl⟩ := h
  have key : ∀ b : Broker, P b → P (supplies.foldl supply b) := by
    induction supplies with
    | nil => exact fun b hb ↦ hb
    | cons x rest ih => exact fun b hb ↦ ih _ (supplied b x hb)
  exact key _ (empty redelivers)

theorem Untouched.sound {b : Broker} (h : b.Untouched) : b.Sound := by
  refine h.induction (fun redelivers ↦ ?_) fun b x hb ↦ sound_supply hb x
  exact ⟨List.Pairwise.nil, List.nodup_nil, List.nodup_nil, fun _ hx ↦ absurd hx List.not_mem_nil⟩

theorem Untouched.nothing_settled {b : Broker} (h : b.Untouched) :
    b.inFlight = [] ∧ b.acked = [] ∧ b.nacked = [] := by
  refine h.induction (P := fun b ↦ b.inFlight = [] ∧ b.acked = [] ∧ b.nacked = [])
    (fun redelivers ↦ ⟨rfl, rfl, rfl⟩) fun b x hb ↦ ?_
  simpa using hb

end PullConsumer.Broker
