import LicenseForecast.Inquiry.Metrics
import LicenseForecast.Proofs.Outcome

namespace LicenseForecast

/-!
# What inquiries come to

In a world in which nothing changes, the result of a request is computed by its steps alone: the
result of one request after another is the second at what the first gives (`result_bind`), and
the result of a question is its answer.  A request that succeeds although it may be interrupted
comes to the same without interruptions (`result_of_run_eq_ok`).  A metric that is asked for by its
name is found, unknown or ambiguous as there are one, no or several metrics of that name
(`Metric.only_eq_ok_iff` and the two after it).
-/

/-! ### Answers that are needed -/

namespace Failure

/-- What is made of an answer without which a request cannot go on. -/
def demanded {α : Type} (lookup : Lookup) : Except LookupFault α → Except Failure α :=
  Except.mapError (.lookup lookup)

/-- What is made of an answer that may be that there is nothing. -/
def sought {α : Type} (lookup : Lookup) :
    Except LookupFault α → Except Failure (Option α)
  | .error .noData => .ok none
  | answer => some <$> demanded lookup answer

end Failure

namespace Failure

variable {α : Type} {lookup : Lookup} {answer : Except LookupFault α}

/-- A needed answer is there if the question has one. -/
theorem demanded_eq_ok {a : α} : demanded lookup answer = .ok a ↔ answer = .ok a :=
  mapError_eq_ok

/-- An answer that is there is found. -/
theorem sought_ok (a : α) : sought lookup (.ok a) = .ok (some a) := rfl

/-- That there is nothing is an answer, too. -/
theorem sought_noData : sought lookup (.error .noData : Except LookupFault α) = .ok none := rfl

/-- Any fault other than that there is nothing is a failure. -/
theorem sought_fault {fault : LookupFault} (h : fault ≠ .noData) :
    sought lookup (.error fault : Except LookupFault α) = .error (.lookup lookup fault) := by
  cases fault with
  | noData => exact absurd rfl h
  | _ => rfl

/-- Something is found exactly if the question has an answer. -/
theorem sought_eq_some {a : α} : sought lookup answer = .ok (some a) ↔ answer = .ok a := by
  cases answer with
  | ok b => simp [sought_ok]
  | error fault =>
    by_cases h : fault = .noData
    · subst h
      simp [sought_noData]
    · simp [sought_fault h]

/-- Nothing is found exactly if the question is answered that there is nothing. -/
theorem sought_eq_none : sought lookup answer = .ok none ↔ answer = .error .noData := by
  cases answer with
  | ok b => simp [sought_ok]
  | error fault =>
    by_cases h : fault = .noData
    · subst h
      simp [sought_noData]
    · simp [sought_fault h, h]

end Failure

namespace Inquiry

variable {α β : Type}

/-! ### Requests obey the monad laws -/

/-- A request goes on as it is if it hands on its result. -/
private theorem bind_pure_right (x : Inquiry α) : x.bind (fun a => .done (.ok a)) = x := by
  induction x with
  | done result => cases result <;> rfl
  | checkpoint next ih => exact congrArg Inquiry.checkpoint ih
  | ask query next ih => exact congrArg (Inquiry.ask query) (funext ih)

/-- Of three requests in a row it does not matter which two are taken together. -/
private theorem bind_bind {γ : Type} (x : Inquiry α) (f : α → Inquiry β) (g : β → Inquiry γ) :
    (x.bind f).bind g = x.bind fun a => (f a).bind g := by
  induction x with
  | done result => cases result <;> rfl
  | checkpoint next ih => exact congrArg Inquiry.checkpoint ih
  | ask query next ih => exact congrArg (Inquiry.ask query) (funext ih)

/-- Requests obey the laws of a monad, so that a sequence of them can be regrouped. -/
instance : LawfulMonad Inquiry :=
  LawfulMonad.mk' Inquiry bind_pure_right (fun _ _ => rfl) bind_bind

/-- To ask for a metric is to ask for all of its family. -/
theorem metric_bind (family : Family) (name : String) (f : Metric → Inquiry β) :
    metric family name >>= f = look >>= fun _ => demand (.metrics family) >>= fun specs =>
      ofExcept (Metric.only family name (specs.map (Metric.ofSpec family))) >>= f := by
  simp only [metric, metrics, bind_assoc, pure_bind]

/-! ### Results step by step -/

/-- In a still world it does not matter how many questions came before. -/
private theorem run_still (inventory : Inventory) (interruption : Option Interruption)
    (x : Inquiry α) (asked asked' : Nat) :
    (x.run (.still inventory interruption) asked).2
      = (x.run (.still inventory interruption) asked').2 := by
  induction x generalizing asked asked' with
  | done result => rfl
  | checkpoint next ih =>
    cases interruption with
    | some cause => rfl
    | none => exact ih _ _
  | ask query next ih => exact ih _ _ _

section

variable (inventory : Inventory)

/-- **The result of one request after another.** -/
theorem result_bind (x : Inquiry α) (f : α → Inquiry β) :
    (x >>= f).result inventory none
      = x.result inventory none >>= fun a => (f a).result inventory none := by
  induction x with
  | done result => cases result <;> rfl
  -- each case of the induction answers one question and leaves the rest to the hypothesis
  | checkpoint next ih => exact ih
  | ask query next ih =>
    show (((next (inventory query)).bind f).run (.still inventory) 1).2 = _
    rw [run_still inventory none _ 1 0]
    refine (ih (inventory query)).trans ?_
    congr 1
    exact run_still inventory none _ 0 1

/-- A function of a result. -/
theorem result_map (f : α → β) (x : Inquiry α) :
    (f <$> x).result inventory none = f <$> x.result inventory none := by
  rw [map_eq_pure_bind, result_bind, map_eq_pure_bind]
  rfl

/-- A computation without questions. -/
theorem result_ofExcept (result : Except Failure α) :
    (ofExcept result).result inventory none = result := rfl

/-- Nobody interrupts a request in a still world. -/
theorem result_look : look.result inventory none = .ok () := rfl

/-- A question alone comes to its answer. -/
theorem result_answer (query : Query) :
    (answer query).result inventory none = .ok (inventory query) := rfl

/-- A question whose answer is needed comes to that answer or fails. -/
theorem result_demand (query : Query) :
    (demand query).result inventory none = Failure.demanded query.lookup (inventory query) := by
  rw [demand, result_bind, result_answer]
  show (require query (inventory query)).result inventory none = _
  cases inventory query <;> rfl

/-- A question that may find nothing comes to what it finds. -/
theorem result_seek (query : Query) :
    (seek query).result inventory none = Failure.sought query.lookup (inventory query) := by
  rw [seek, result_bind, result_answer]
  cases inventory query with
  | ok a => rfl
  | error fault => cases fault <;> rfl

end

/-! ### Interruptions -/

/-- **A success is not owed to the moments at which a request was not interrupted.** -/
theorem result_of_run_eq_ok {inventory : Inventory} {interruption : Nat → Option Interruption}
    {x : Inquiry α} {asked : Nat} {a : α}
    (h : (x.run ⟨fun _ => inventory, interruption⟩ asked).2 = .ok a) :
    x.result inventory none = .ok a := by
  induction x generalizing asked with
  | done result => exact h
  | checkpoint next ih =>
    unfold run at h
    cases hcause : interruption asked with
    | some cause =>
      simp only [hcause] at h
      cases h
    | none =>
      simp only [hcause] at h
      exact ih h
  -- a question is not interrupted, so all of the success is owed to what comes after it
  | ask query next ih =>
    have hnext : (next (inventory query)).result inventory none = .ok a := ih _ h
    show ((next (inventory query)).run (.still inventory) 1).2 = _
    rw [run_still inventory none _ 1 0]
    exact hnext

end Inquiry

/-! ### Metrics by name -/

namespace Metric

variable {family : Family} {name : String} {metrics : List Metric}

/-- A metric is found by its name if it alone has that name. -/
theorem only_eq_ok_iff {m : Metric} :
    Metric.only family name metrics = .ok m ↔ metrics.filter (·.name == name) = [m] := by
  unfold Metric.only
  generalize metrics.filter (·.name == name) = matching
  match matching with
  | [] => simp
  | [_] => simp
  | _ :: _ :: _ => simp

/-- It is not known if no metric has its name. -/
theorem only_eq_unknown_iff :
    Metric.only family name metrics = .error (.unknownMetric family name) ↔
      metrics.filter (·.name == name) = [] := by
  unfold Metric.only
  generalize metrics.filter (·.name == name) = matching
  match matching with
  | [] => simp
  | [_] => simp
  | _ :: _ :: _ => simp

/-- It is ambiguous if several metrics have its name, and then it is said how many. -/
theorem only_eq_ambiguous_iff {count : Nat} :
    Metric.only family name metrics = .error (.ambiguousMetric family name count) ↔
      2 ≤ count ∧ (metrics.filter (·.name == name)).length = count := by
  unfold Metric.only
  generalize metrics.filter (·.name == name) = matching
  match matching with
  | [] => simp; omega
  | [_] => simp; omega
  | _ :: _ :: _ => simp; omega

end Metric

/-- What a request comes to that asks for a metric by its name. -/
theorem Inquiry.result_metric (inventory : Inventory) (family : Family) (name : String) :
    (Inquiry.metric family name).result inventory none = (do
      let specs ← Failure.demanded (.metrics family) (inventory (.metrics family))
      Metric.only family name (specs.map (Metric.ofSpec family))) := by
  rw [metric, result_bind, result_look]
  show (metrics family >>= fun all => ofExcept (Metric.only family name all)).result
    inventory none = _
  rw [result_bind, metrics, result_bind]
  show (result inventory none (demand (.metrics family)) >>= _) >>= _ = _
  rw [result_demand, bind_assoc]
  rfl

end LicenseForecast
