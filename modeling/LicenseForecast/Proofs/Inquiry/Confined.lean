import LicenseForecast.Proofs.Inquiry.Plan

namespace LicenseForecast.Inquiry

/-!
# Requests that ask certain questions only

Whatever a confined request is answered, it asks questions of one kind (`Confined.asks_of_mem`) and
fails in ways of one kind (`Confined.fails_of_run`).  What is answered to other questions does not
matter to it (`Confined.run_congr`).
-/

variable {α β : Type}

/-- A request that asks only such questions, whatever it is answered, and fails only in such
    ways. -/
inductive Confined (asks : Query → Prop) (fails : Failure → Prop) : Inquiry α → Prop
  | done (result : Except Failure α) (h : ∀ failure, result = .error failure → fails failure) :
      Confined asks fails (.done result)
  | checkpoint (next : Inquiry α) (h : Confined asks fails next) :
      Confined asks fails (.checkpoint next)
  | ask (query : Query) (next : Except LookupFault query.Answer → Inquiry α) (hquery : asks query)
      (h : ∀ answer, Confined asks fails (next answer)) : Confined asks fails (.ask query next)

namespace Confined

variable {asks : Query → Prop} {fails : Failure → Prop} {x : Inquiry α} {f : α → Inquiry β}

/-! ### Step by step -/

theorem pure (a : α) : Confined asks fails (Pure.pure a : Inquiry α) := .done _ fun _ => nofun

/-- So is one that fails in such a way. -/
theorem failed {failure : Failure} (h : fails failure) :
    Confined asks fails (.done (.error failure) : Inquiry α) := by
  refine .done _ fun failure' heq => ?_
  cases heq
  exact h

/-- One request after another. -/
protected theorem bind (hx : Confined asks fails x) (hf : ∀ a, Confined asks fails (f a)) :
    Confined asks fails (x >>= f) := by
  induction hx with
  | done result h =>
    cases result with
    | ok a => exact hf a
    | error failure => exact failed (h failure rfl)
  | checkpoint next _ ih => exact .checkpoint _ ih
  | ask query next hquery _ ih => exact .ask query _ hquery ih

/-- A result that needs no questions, and what follows it. -/
theorem ofExcept_bind {result : Except Failure α}
    (h : ∀ failure, result = .error failure → fails failure)
    (hf : ∀ a, Confined asks fails (f a)) : Confined asks fails (ofExcept result >>= f) :=
  .bind (.done result h) hf

/-- A question that must have an answer, and what follows it. -/
theorem demand_bind {query : Query} {f : query.Answer → Inquiry β} (hquery : asks query)
    (hfault : ∀ fault, fails (.lookup query.lookup fault))
    (hf : ∀ answer, Confined asks fails (f answer)) :
    Confined asks fails (look >>= fun _ => demand query >>= f) := by
  refine .checkpoint _ (.ask query (fun answer => (require query answer).bind f) hquery ?_)
  rintro (fault | answer)
  · exact failed (hfault fault)
  · exact hf answer

/-- A question to which the answer may be that there is nothing. -/
theorem seek {query : Query} (hquery : asks query)
    (hfault : ∀ fault, fails (.lookup query.lookup fault)) :
    Confined asks fails (look >>= fun _ => Inquiry.seek query) := by
  refine .checkpoint _ (.ask query _ hquery ?_)
  rintro (fault | answer)
  · cases fault with
    | noData => exact .pure none
    | _ => exact failed (hfault _)
  · exact .pure (some answer)

/-! ### Runs -/

variable {world : World} {asked : Nat}

/-- What a confined request asks. -/
theorem asks_of_mem (hx : Confined asks fails x) {query : Query}
    (h : query ∈ (x.run world asked).1) : asks query := by
  induction hx generalizing asked with
  | done result _ => cases h
  | checkpoint next _ ih =>
    unfold run at h
    split at h
    · cases h
    · exact ih h
  | ask query' next hquery _ ih =>
    rcases List.mem_cons.mp h with rfl | h
    · exact hquery
    · exact ih _ h

/-- How a confined request fails, unless it is interrupted. -/
theorem fails_of_run (hx : Confined asks fails x) {failure : Failure}
    (h : (x.run world asked).2 = .error failure) :
    fails failure ∨ ∃ cause, failure = .interrupted cause := by
  induction hx generalizing asked with
  | done result hresult => exact .inl (hresult failure h)
  | checkpoint next _ ih =>
    unfold run at h
    split at h
    next cause _ =>
      cases h
      exact .inr ⟨cause, rfl⟩
    · exact ih h
  | ask query next _ _ ih => exact ih _ h

/-- **The answers to other questions do not matter** to a confined request. -/
theorem run_congr (hx : Confined asks fails x) {world' : World}
    (hinterruption : world'.interruption = world.interruption)
    (h : ∀ k query, asks query → world'.inventory k query = world.inventory k query) :
    x.run world' asked = x.run world asked :=
  Inquiry.run_congr hinterruption fun _ query hquery =>
    h _ query (hx.asks_of_mem (List.mem_of_getElem? hquery))

end Confined

end LicenseForecast.Inquiry
