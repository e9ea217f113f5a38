import LicenseForecast.Proofs.Inquiry.Result

namespace LicenseForecast.Inquiry

/-!
# Requests that follow a plan

Much of what a request asks is known from a few answers.  `Follows` compares a run with a plan,
whatever interrupts it, and is built up from one question to the next:

* `Follows.bind` — one plan after another;
* `Follows.demand_bind`, `Follows.seek_bind` — a question that is followed by the rest of the plan;
* `run_congr`, `result_of_answers` — what a request asks and what comes of it depend on the answers
  to its own questions only.
-/

variable {α β : Type}

/-! ### Runs of one request after another -/

variable {world : World} {asked : Nat} {x : Inquiry α} {f : α → Inquiry β}

/-- A request that succeeds is followed by the next. -/
theorem run_bind_ok {a : α} (h : (x.run world asked).2 = .ok a) :
    (x >>= f).run world asked
      = ((x.run world asked).1 ++ ((f a).run world (asked + (x.run world asked).1.length)).1,
          ((f a).run world (asked + (x.run world asked).1.length)).2) := by
  induction x generalizing asked with
  | done result =>
    cases h
    rfl
  | checkpoint next ih =>
    show run world asked (.checkpoint (next >>= f)) = _
    simp only [run] at h ⊢
    cases hcause : world.interruption asked with
    | some cause =>
      rw [hcause] at h
      cases h
    | none =>
      rw [hcause] at h
      exact ih h
  | ask query next ih =>
    show run world asked (.ask query fun answer => next answer >>= f) = _
    have hrest := ih (world.inventory asked query) h
    -- the questions of the rest are numbered from the one that was just asked
    simp only [run, List.length_cons, List.cons_append]
    rw [hrest, Nat.add_right_comm, Nat.add_assoc asked]

/-- A request that fails is not followed by any other. -/
theorem run_bind_error {failure : Failure} (h : (x.run world asked).2 = .error failure) :
    (x >>= f).run world asked = ((x.run world asked).1, .error failure) := by
  induction x generalizing asked with
  | done result =>
    cases h
    rfl
  | checkpoint next ih =>
    show run world asked (.checkpoint (next >>= f)) = _
    simp only [run] at h ⊢
    cases hcause : world.interruption asked with
    | some cause =>
      rw [hcause] at h
      cases h
      rfl
    | none =>
      rw [hcause] at h
      exact ih h
  | ask query next ih =>
    show run world asked (.ask query fun answer => next answer >>= f) = _
    simp only [run]
    rw [ih (world.inventory asked query) h]

/-- **What the success of one request after another comes from.** -/
theorem run_bind_eq_ok {b : β} : ((x >>= f).run world asked).2 = .ok b ↔
    ∃ a, (x.run world asked).2 = .ok a ∧
      ((f a).run world (asked + (x.run world asked).1.length)).2 = .ok b := by
  cases hresult : (x.run world asked).2 with
  | ok a =>
    rw [run_bind_ok hresult]
    constructor
    · intro h
      exact ⟨a, rfl, h⟩
    · rintro ⟨a', ha, h⟩
      cases ha
      exact h
  | error failure =>
    rw [run_bind_error hresult]
    exact ⟨nofun, nofun⟩

/-- A success after a question comes from its answer. -/
private theorem run_question_ok {query : Query} {next : Except LookupFault query.Answer → Inquiry β}
    {b : β} (h : ((checkpoint (ask query next)).run world asked).2 = .ok b) :
    ((next (world.inventory asked query)).run world (asked + 1)).2 = .ok b := by
  simp only [run] at h
  cases hcause : world.interruption asked with
  | some cause =>
    rw [hcause] at h
    cases h
  | none =>
    rw [hcause] at h
    exact h

/-- A success after a question that must have an answer. -/
theorem run_demand_bind_ok {query : Query} {f : query.Answer → Inquiry β} {b : β}
    (h : ((look >>= fun _ => demand query >>= f).run world asked).2 = .ok b) :
    ∃ answer, world.inventory asked query = .ok answer ∧
      ((f answer).run world (asked + 1)).2 = .ok b := by
  replace h : ((checkpoint (ask query fun answer => (require query answer).bind f)).run world
    asked).2 = .ok b := h
  have hrest := run_question_ok h
  cases hanswer : world.inventory asked query with
  | ok answer =>
    rw [hanswer] at hrest
    exact ⟨answer, rfl, hrest⟩
  | error fault =>
    rw [hanswer] at hrest
    cases hrest

/-- A success after a question to which the answer may be that there is nothing. -/
theorem run_seek_bind_ok {query : Query} {f : Option query.Answer → Inquiry β} {b : β}
    (h : (((look >>= fun _ => seek query) >>= f).run world asked).2 = .ok b) :
    ∃ found, Failure.sought query.lookup (world.inventory asked query) = .ok found ∧
      ((f found).run world (asked + 1)).2 = .ok b := by
  replace h : ((checkpoint (seek query >>= f)).run world asked).2 = .ok b := h
  have hrest := run_question_ok h
  cases hanswer : world.inventory asked query with
  | ok answer =>
    rw [hanswer] at hrest
    exact ⟨some answer, Failure.sought_ok answer, hrest⟩
  | error fault =>
    rw [hanswer] at hrest
    cases fault with
    | noData => exact ⟨none, Failure.sought_noData, hrest⟩
    | _ => cases hrest

/-- What follows a success only matters there. -/
theorem run_bind_congr {g : α → Inquiry β} (h : ∀ a, (x.run world asked).2 = .ok a → f a = g a) :
    (x >>= f).run world asked = (x >>= g).run world asked := by
  cases hresult : (x.run world asked).2 with
  | ok a => rw [run_bind_ok hresult, run_bind_ok hresult, h a hresult]
  | error failure => rw [run_bind_error hresult, run_bind_error hresult]

/-! ### Plans -/

/-- A request asks the questions of a plan in their order and no others, and all of them if it
    succeeds. -/
structure Follows (world : World) (asked : Nat) (plan : List Query) (x : Inquiry α) : Prop where
  inOrder : (x.run world asked).1 <+: plan
  complete : ∀ a, (x.run world asked).2 = .ok a → (x.run world asked).1 = plan

namespace Follows

variable {plan rest : List Query}

theorem pure (a : α) : Follows world asked [] (Pure.pure a : Inquiry α) :=
  ⟨List.prefix_rfl, fun _ _ => rfl⟩

/-- What has failed asks nothing more. -/
theorem failed (failure : Failure) :
    Follows world asked plan (.done (.error failure) : Inquiry α) :=
  ⟨List.nil_prefix, nofun⟩

/-- **One plan after another.** -/
protected theorem bind (hx : Follows world asked plan x)
    (hf : ∀ a, (x.run world asked).2 = .ok a → Follows world (asked + plan.length) rest (f a)) :
    Follows world asked (plan ++ rest) (x >>= f) := by
  cases hresult : (x.run world asked).2 with
  -- a failure ends the run inside the first part of the plan
  | error failure =>
    have hrun := run_bind_error (f := f) hresult
    constructor
    · rw [hrun]
      exact hx.inOrder.trans (List.prefix_append ..)
    · intro b hb
      rw [hrun] at hb
      cases hb
  | ok a =>
    -- a success has put every question of that part, so the next part starts behind it
    have hall := hx.complete a hresult
    have hnext := hf a hresult
    rw [← hall] at hnext ⊢
    have hrun := run_bind_ok (f := f) hresult
    constructor
    · rw [hrun]
      exact (List.prefix_append_right_inj _).mpr hnext.inOrder
    · intro b hb
      rw [hrun] at hb ⊢
      exact congrArg (_ ++ ·) (hnext.complete b hb)

/-- A look around is no question. -/
theorem checkpoint {next : Inquiry α} (h : Follows world asked plan next) :
    Follows world asked plan (.checkpoint next) := by
  cases hcause : world.interruption asked with
  -- interrupted here, nothing is asked
  | some cause =>
    have hrun : run world asked (.checkpoint next) = ([], .error (.interrupted cause)) := by
      simp only [run, hcause]
    constructor
    · rw [hrun]
      exact List.nil_prefix
    · intro a ha
      rw [hrun] at ha
      cases ha
  | none =>
    have hrun : run world asked (.checkpoint next) = next.run world asked := by
      simp only [run, hcause]
    constructor
    · rw [hrun]
      exact h.inOrder
    · rw [hrun]
      exact h.complete

/-- A question, and the rest of the plan for the answer. -/
theorem ask {query : Query} {next : Except LookupFault query.Answer → Inquiry α}
    (h : Follows world (asked + 1) rest (next (world.inventory asked query))) :
    Follows world asked (query :: rest) (.ask query next) where
  inOrder := List.cons_prefix_cons.mpr ⟨rfl, h.inOrder⟩
  complete a ha := congrArg (query :: ·) (h.complete a ha)

/-- A result that needs no questions, and what follows it. -/
theorem ofExcept_bind {result : Except Failure α}
    (hf : ∀ a, result = .ok a → Follows world asked plan (f a)) :
    Follows world asked plan (ofExcept result >>= f) := by
  cases result with
  | ok a => exact hf a rfl
  | error failure => exact failed failure

/-- A question that must have an answer, and what follows it. -/
theorem demand_bind {query : Query} {f : query.Answer → Inquiry β}
    (hf : ∀ answer, world.inventory asked query = .ok answer →
      Follows world (asked + 1) rest (f answer)) :
    Follows world asked (query :: rest) (look >>= fun _ => demand query >>= f) := by
  show Follows _ _ _ (.checkpoint (.ask query fun answer => (require query answer).bind f))
  refine checkpoint (ask ?_)
  cases hanswer : world.inventory asked query with
  | ok answer => exact hf answer hanswer
  | error fault => exact failed _

/-- A question to which the answer may be that there is nothing, and what follows it. -/
theorem seek_bind {query : Query} {f : Option query.Answer → Inquiry β}
    (hf : ∀ found, Failure.sought query.lookup (world.inventory asked query) = .ok found →
      Follows world (asked + 1) rest (f found)) :
    Follows world asked (query :: rest) ((look >>= fun _ => seek query) >>= f) := by
  show Follows _ _ _ (.checkpoint (seek query >>= f))
  refine checkpoint (ask ?_)
  cases hanswer : world.inventory asked query with
  | ok answer => exact hf (some answer) (by rw [hanswer, Failure.sought_ok])
  | error fault =>
    cases fault with
    | noData => exact hf none (by rw [hanswer, Failure.sought_noData])
    | _ => exact failed _

end Follows

/-! ### Answers that matter -/

/-- **Only the answers to its own questions matter** to the course of a request: it is the same in
    a world that has the same answers to those, each in its place. -/
theorem run_congr {world' : World} (hinterruption : world'.interruption = world.interruption)
    (h : ∀ k query, (x.run world asked).1[k]? = some query →
      world'.inventory (asked + k) query = world.inventory (asked + k) query) :
    x.run world' asked = x.run world asked := by
  induction x generalizing asked with
  | done result => rfl
  | checkpoint next ih =>
    simp only [run] at h ⊢
    rw [hinterruption]
    cases hcause : world.interruption asked with
    | some cause => rfl
    | none =>
      rw [hcause] at h
      exact ih h
  | ask query next ih =>
    -- the first answers agree, so both worlds go on with the same questions
    have hfirst : world'.inventory asked query = world.inventory asked query := h 0 query rfl
    have hrest : (next (world.inventory asked query)).run world' (asked + 1)
        = (next (world.inventory asked query)).run world (asked + 1) := by
      refine ih (world.inventory asked query) fun k later hlater => ?_
      rw [Nat.add_right_comm, Nat.add_assoc]
      exact h (k + 1) later hlater
    simp only [run]
    rw [hfirst, hrest]

/-- The result of a question is that of what follows its answer. -/
theorem result_ask (inventory : Inventory) (query : Query)
    (next : Except LookupFault query.Answer → Inquiry α) :
    (ask query next).result inventory none = (next (inventory query)).result inventory none :=
  result_bind inventory (answer query) next

/-- Unless a request is interrupted, its result is that in an inventory which has the same answers
    to its own questions. -/
theorem result_of_answers {inventory : Inventory}
    (h : ∀ k query, (x.run world asked).1[k]? = some query →
      world.inventory (asked + k) query = inventory query) :
    (∃ cause, (x.run world asked).2 = .error (.interrupted cause)) ∨
      (x.run world asked).2 = x.result inventory none := by
  induction x generalizing asked with
  | done result => exact .inr rfl
  | checkpoint next ih =>
    simp only [run] at h ⊢
    cases hcause : world.interruption asked with
    | some cause => exact .inl ⟨cause, rfl⟩
    | none =>
      rw [hcause] at h
      exact ih h
  | ask query next ih =>
    have hfirst : world.inventory asked query = inventory query := h 0 query rfl
    rw [result_ask, ← hfirst]
    -- what is asked later is shifted by one
    refine ih (world.inventory asked query) fun k later hlater => ?_
    rw [Nat.add_right_comm, Nat.add_assoc]
    exact h (k + 1) later hlater

end LicenseForecast.Inquiry
