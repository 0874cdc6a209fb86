import EventWorker.Surroundings

/-!
# Faults

A provider can be made to fail: a call of a method that has a fault ends with the
failure and does not reach the provider.
-/

namespace EventWorker

/-- The methods that can be made to fail. -/
inductive Method
  | setUp
  | connect
  | disconnect
  | begin
  | commit
  | rollback
  | session
  | sessionByValue
  | user
  | userByName
  | createSession
  | createEncryption
  | updateLastUpdated
  | updateEncryption
  | delete
  | recipients
  | clientRecipients
  deriving DecidableEq, Repr

/-- Which calls of a method fail. -/
inductive FaultPlan
  | always (f : Failure)
  /-- One entry a call, and no failure after the last. -/
  | next (entries : List (Option Failure))
  deriving DecidableEq, Repr

/-- The faults of a provider by method. -/
abbrev Faults := List (Method × FaultPlan)

namespace Faults

/-- Gives a method a fault in place of an older one. -/
def set (m : Method) (plan : FaultPlan) (t : Faults) : Faults :=
  (m, plan) :: Keyed.erase m t

/-- The failure of the next call of a method, and the faults after the call. -/
def meet (m : Method) (t : Faults) : Option Failure × Faults :=
  match Keyed.find? m t with
  | none | some (.next []) => (none, t)
  | some (.always f) => (some f, t)
  | some (.next (entry :: rest)) => (entry, t.set m (.next rest))

variable {ω α : Type}

/-- The act behind the fault of a method. -/
def guard (l : Lens ω Faults) (m : Method) (a : Act ω α) : Act ω α :=
  Step.ofFunction fun w =>
    let (failure?, t) := (l.get w).meet m
    match failure? with
    | some f => (.error f, l.set t w)
    | none => a.outcome (l.set t w)

end Faults

variable {ω : Type}

/-- A life cycle behind faults. -/
def LifeCycle.faulty (l : Lens ω Faults) (c : LifeCycle ω) : LifeCycle ω where
  setUp line := Faults.guard l .setUp (c.setUp line)
  connect := Faults.guard l .connect c.connect
  disconnect := Faults.guard l .disconnect c.disconnect

/-- A manager behind faults. -/
def Manager.faulty (l : Lens ω Faults) (m : Manager ω) : Manager ω where
  toLifeCycle := m.toLifeCycle.faulty l
  begin := Faults.guard l .begin m.begin
  commit := Faults.guard l .commit m.commit
  rollback := Faults.guard l .rollback m.rollback

/-- A database behind faults. -/
def Database.faulty (l : Lens ω Faults) (d : Database ω) : Database ω where
  toManager := d.toManager.faulty l
  session? token value := Faults.guard l .session (d.session? token value)
  sessionByValue? value := Faults.guard l .sessionByValue (d.sessionByValue? value)
  user? id := Faults.guard l .user (d.user? id)
  userByName? username := Faults.guard l .userByName (d.userByName? username)
  createSession client value token time :=
    Faults.guard l .createSession (d.createSession client value token time)
  createEncryption sessionId state :=
    Faults.guard l .createEncryption (d.createEncryption sessionId state)
  updateLastUpdated value time :=
    Faults.guard l .updateLastUpdated (d.updateLastUpdated value time)
  updateEncryption sessionId state :=
    Faults.guard l .updateEncryption (d.updateEncryption sessionId state)
  delete sessionId := Faults.guard l .delete (d.delete sessionId)
  recipientsOf? value := Faults.guard l .recipients (d.recipientsOf? value)
  clientRecipients? value := Faults.guard l .clientRecipients (d.clientRecipients? value)

/-- An input behind faults. -/
def Input.faulty (l : Lens ω Faults) (i : Input ω) : Input ω :=
  { i with toLifeCycle := i.toLifeCycle.faulty l }

/-- An output behind faults. -/
def Output.faulty (l : Lens ω Faults) (o : Output ω) : Output ω :=
  { o with toLifeCycle := o.toLifeCycle.faulty l }

end EventWorker
