import LicenseForecast.Proofs.Inquiry.Orderly

namespace LicenseForecast.Inquiry

/-!
# Requests that are told that there is nothing

That there is nothing is an answer of its own: some questions it settles, others it leaves open.
`SettledBy upon` says of a request that it is over, with the result that `upon` names, as soon as
a question which that settles is answered so, and that it never says so by itself.  For every run
of such a request:

* `SettledBy.run_settled` — a question that is settled so is the last one, and decides the result;
* `SettledBy.run_open` — after one that is left open the request goes on or succeeds;
* `SettledBy.nothing_of_run` — a failure that says that there is nothing comes from a question that
  was answered so.
-/

variable {α β : Type}

/-- A request that has succeeded, or that asks on unless it is interrupted. -/
inductive GoesOn : Inquiry α → Prop
  | done (a : α) : GoesOn (.done (.ok a))
  | ask (query : Query) (next : Except LookupFault query.Answer → Inquiry α) :
      GoesOn (.checkpoint (.ask query next))

/-- A request that goes on does not fail without a question, unless it is interrupted. -/
theorem GoesOn.ends {x : Inquiry α} (hx : x.GoesOn) {world : World} {asked : Nat}
    (h : (x.run world asked).1.length = 0) :
    (∃ a, (x.run world asked).2 = .ok a) ∨
      ∃ cause, (x.run world asked).2 = .error (.interrupted cause) := by
  cases hx with
  | done a => exact .inl ⟨a, rfl⟩
  | ask query next =>
    rw [run_question] at h ⊢
    cases hcause : world.interruption asked with
    | some cause => exact .inr ⟨cause, rfl⟩
    | none =>
      rw [hcause] at h
      cases h

/-- A request that the answer that there is nothing settles as `upon` says, question by question. -/
inductive SettledBy (upon : Query → Option (Except Failure α)) : Inquiry α → Prop
  | done (result : Except Failure α) (own : FailsOnly Failure.IsOwn result) :
      SettledBy upon (.done result)
  | checkpoint (next : Inquiry α) (h : SettledBy upon next) : SettledBy upon (.checkpoint next)
  | ask (query : Query) (next : Except LookupFault query.Answer → Inquiry α)
      (settled : ∀ result, upon query = some result → next (.error .noData) = .done result)
      (goesOn : upon query = none → (next (.error .noData)).GoesOn)
      (rest : ∀ answer, (answer = .error .noData → upon query = none) →
        SettledBy upon (next answer)) :
      SettledBy upon (.ask query next)

namespace SettledBy

variable {upon : Query → Option (Except Failure α)} {x : Inquiry α}

/-! ### Step by step -/

theorem pure (a : α) : SettledBy upon (Pure.pure a : Inquiry α) := .done _ (.ok a)

/-- So is one that fails in another way. -/
theorem fault {lookup : Lookup} {fault : LookupFault} (h : fault ≠ .noData) :
    SettledBy upon (.done (.error (.lookup lookup fault)) : Inquiry α) :=
  .done _ (.error (.lookup lookup fault h))

/-- A result that needs no questions, and what follows it. -/
theorem ofExcept_bind {result : Except Failure β} {f : β → Inquiry α}
    (own : FailsOnly Failure.IsOwn result) (hf : ∀ b, SettledBy upon (f b)) :
    SettledBy upon (ofExcept result >>= f) := by
  cases result with
  | ok b => exact hf b
  | error failure => exact .done _ (.error (own failure rfl))

/-- A check that has no result settles nothing else. -/
theorem discard_bind {result : Except Failure β} (own : FailsOnly Failure.IsOwn result)
    (hx : SettledBy upon x) : SettledBy upon (discard (ofExcept result) >>= fun _ => x) := by
  cases result with
  | ok b => exact hx
  | error failure => exact .done _ (.error (own failure rfl))

/-- A question that must have an answer, and what follows it. -/
theorem demand_bind {query : Query} {f : query.Answer → Inquiry α}
    (hupon : upon query = some (.error (.lookup query.lookup .noData)))
    (hf : ∀ answer, SettledBy upon (f answer)) :
    SettledBy upon (look >>= fun _ => demand query >>= f) := by
  refine .checkpoint _ (.ask query (fun answer => (require query answer).bind f) ?_ ?_ ?_)
  · intro result hresult
    cases hupon.symm.trans hresult
    rfl
  · intro hnone
    cases hupon.symm.trans hnone
  · rintro (reason | answer) hsettled
    · -- had it been that there is nothing, the question would have been left open
      refine fault fun hreason => ?_
      cases hupon.symm.trans (hsettled (congrArg Except.error hreason))
    · exact hf answer

/-- A question to which the answer may be that there is nothing, and what follows it. -/
theorem seek_bind {query : Query} {f : Option query.Answer → Inquiry α}
    (hsettled : ∀ result, upon query = some result → f none = .done result)
    (hopen : upon query = none → (f none).GoesOn ∧ SettledBy upon (f none))
    (hf : ∀ answer, SettledBy upon (f (some answer))) :
    SettledBy upon ((look >>= fun _ => seek query) >>= f) := by
  show SettledBy upon (.checkpoint (seek query >>= f))
  refine .checkpoint _ (.ask query _ hsettled (fun hnone => (hopen hnone).1) ?_)
  rintro (reason | answer) hrest
  · by_cases hreason : reason = .noData
    · subst hreason
      exact (hopen (hrest rfl)).2
    · cases reason with
      | noData => exact absurd rfl hreason
      | _ => exact fault hreason
  · exact hf answer

/-! ### Runs -/

section

variable {world : World} {asked k : Nat} {query : Query}

/-- A question that is followed by another was not settled. -/
private theorem opened {first : Query} {next : Except LookupFault first.Answer → Inquiry α}
    (settled : ∀ result, upon first = some result → next (.error .noData) = .done result)
    (hlater : ((next (world.inventory asked first)).run world (asked + 1)).1[k]? = some query) :
    world.inventory asked first = .error .noData → upon first = none := by
  intro hnothing
  cases hupon : upon first with
  | none => rfl
  | some result =>
    rw [hnothing, settled result hupon] at hlater
    cases hlater

/-- **A question that is settled so** is the last one, and decides the result. -/
theorem run_settled (hx : SettledBy upon x) (hquery : (x.run world asked).1[k]? = some query)
    (hanswer : world.inventory (asked + k) query = .error .noData) {result : Except Failure α}
    (hupon : upon query = some result) :
    (x.run world asked).1.length = k + 1 ∧ (x.run world asked).2 = result := by
  induction hx generalizing asked k with
  | done result' _ => cases hquery
  | checkpoint next _ ih =>
    -- an interruption leaves no questions, so there is none that was answered
    simp only [run] at hquery ⊢
    cases hcause : world.interruption asked with
    | some cause =>
      rw [hcause] at hquery
      cases hquery
    | none =>
      rw [hcause] at hquery
      exact ih hquery hanswer
  | ask query' next settled _ _ ih =>
    simp only [run] at hquery ⊢
    cases k with
    -- the question answered so is the first: the run ends with it
    | zero =>
      cases hquery
      rw [Nat.add_zero] at hanswer
      rw [hanswer, settled result hupon]
      exact ⟨rfl, rfl⟩
    | succ k =>
      -- the numbering starts anew behind the first question
      have hshift : asked + 1 + k = asked + (k + 1) := by omega
      rw [← hshift] at hanswer
      obtain ⟨hlength, hresult⟩ := ih _ (opened settled hquery) hquery hanswer
      exact ⟨congrArg Nat.succ hlength, hresult⟩

/-- **After a question that is left open** the request does not fail before the next one, unless it
    is interrupted. -/
theorem run_open (hx : SettledBy upon x) (hquery : (x.run world asked).1[k]? = some query)
    (hanswer : world.inventory (asked + k) query = .error .noData) (hupon : upon query = none)
    (hlast : (x.run world asked).1.length = k + 1) :
    (∃ a, (x.run world asked).2 = .ok a) ∨
      ∃ cause, (x.run world asked).2 = .error (.interrupted cause) := by
  induction hx generalizing asked k with
  | done result _ => cases hquery
  | checkpoint next _ ih =>
    simp only [run] at hquery hlast ⊢
    cases hcause : world.interruption asked with
    | some cause => exact .inr ⟨cause, rfl⟩
    | none =>
      rw [hcause] at hquery hlast
      exact ih hquery hanswer hlast
  | ask query' next settled goesOn _ ih =>
    simp only [run] at hquery hlast ⊢
    cases k with
    | zero =>
      cases hquery
      rw [Nat.add_zero] at hanswer
      rw [hanswer] at hlast ⊢
      -- it is the last, so what goes on after it asks nothing more
      exact (goesOn hupon).ends (Nat.succ.inj hlast)
    | succ k =>
      have hshift : asked + 1 + k = asked + (k + 1) := by omega
      rw [← hshift] at hanswer
      exact ih _ (opened settled hquery) hquery hanswer (Nat.succ.inj hlast)

/-- **A failure that says that there is nothing** comes from the last question, which was answered
    so and is settled by that. -/
theorem nothing_of_run (hx : SettledBy upon x) {lookup : Lookup}
    (h : (x.run world asked).2 = .error (.lookup lookup .noData)) :
    ∃ k query, (x.run world asked).1[k]? = some query ∧ (x.run world asked).1.length = k + 1 ∧
      world.inventory (asked + k) query = .error .noData ∧
      upon query = some (.error (.lookup lookup .noData)) := by
  induction hx generalizing asked with
  | done result own => exact absurd rfl ((own _ h).ne_noData lookup)
  | checkpoint next _ ih =>
    simp only [run] at h ⊢
    cases hcause : world.interruption asked with
    | some cause =>
      rw [hcause] at h
      cases h
    | none =>
      rw [hcause] at h
      exact ih h
  | ask query next settled _ _ ih =>
    simp only [run] at h ⊢
    by_cases hopen : world.inventory asked query = .error .noData → upon query = none
    · obtain ⟨k, later, hlater, hlength, hanswer, hupon⟩ := ih _ hopen h
      have hshift : asked + 1 + k = asked + (k + 1) := by omega
      rw [hshift] at hanswer
      exact ⟨k + 1, later, hlater, congrArg Nat.succ hlength, hanswer, hupon⟩
    · -- this question was answered so, and settles the request
      obtain ⟨hanswer, hupon⟩ := Classical.not_imp.mp hopen
      obtain ⟨result, hresult⟩ := Option.ne_none_iff_exists'.mp hupon
      rw [hanswer, settled result hresult] at h ⊢
      replace h : result = .error (.lookup lookup .noData) := h
      subst h
      exact ⟨0, query, rfl, rfl, hanswer, hresult⟩

end

end SettledBy

end LicenseForecast.Inquiry
