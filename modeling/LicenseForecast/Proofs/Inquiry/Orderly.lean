import LicenseForecast.Proofs.Forecast.Steps

namespace LicenseForecast

/-!
# Requests that look before they ask

`Inquiry.Orderly` says how a request behaves from one question to the next: it looks for an
interruption right before each question and nowhere else, gives up at once where a question has
no answer, and never claims to be interrupted when it is not.  From that alone follows, for every
run of such a request:

* `Orderly.run_interrupted` — an interruption after `n` questions leaves the first `n` questions
  that the request would have asked without it;
* `Orderly.run_fault` — a question without an answer is the last one, and decides the result.
-/

/-- How a request fails that gets no answer to a question.  Equipment above which nothing is found
    does not exist. -/
def Query.failure : Query → LookupFault → Failure
  | .hierarchy id typeName _, .notFound => .unknownEquipment id typeName
  | query, fault => .lookup query.lookup fault

namespace Inquiry

variable {α β : Type}

/-- The result does not say that the request was interrupted. -/
def Uninterrupted (result : Except Failure α) : Prop :=
  ∀ cause, result ≠ .error (.interrupted cause)

/-- A request that looks right before each question, and ends with the first that has no answer. -/
inductive Orderly : Inquiry α → Prop
  | done (result : Except Failure α) (honest : Uninterrupted result) : Orderly (.done result)
  | ask (query : Query) (next : Except LookupFault query.Answer → Inquiry α)
      (givesUp : ∀ fault, fault ≠ .noData →
        next (.error fault) = .done (.error (query.failure fault)))
      (goesOn : ∀ answer, Orderly (next answer)) :
      Orderly (.checkpoint (.ask query next))

/-! ### One request after another -/

/-- What fails in ways of its own does not say that it was interrupted. -/
theorem uninterrupted_of_own {result : Except Failure α} (h : FailsOnly Failure.IsOwn result) :
    Uninterrupted result :=
  fun cause heq => (h _ heq).ne_interrupted cause rfl

namespace Orderly

variable {x : Inquiry α} {f : α → Inquiry β}

theorem pure (a : α) : Orderly (Pure.pure a : Inquiry α) :=
  .done _ (uninterrupted_of_own (.ok a))

/-- **Two requests in order are in order one after the other.** -/
protected theorem bind (hx : x.Orderly) (hf : ∀ a, (f a).Orderly) : (x >>= f).Orderly := by
  induction hx with
  | done result honest =>
    cases result with
    | ok a => exact hf a
    | error failure =>
      refine .done _ fun cause heq => ?_
      exact honest cause (congrArg Except.error (Except.error.inj heq))
  | ask query next givesUp _ ih =>
    refine .ask query (fun answer => (next answer).bind f) (fun fault hfault => ?_) ih
    rw [givesUp fault hfault]
    rfl

/-- A result that needs no questions, and what follows it. -/
theorem ofExcept_bind {result : Except Failure α} (h : FailsOnly Failure.IsOwn result)
    (hf : ∀ a, (f a).Orderly) : (ofExcept result >>= f).Orderly :=
  .bind (.done result (uninterrupted_of_own h)) hf

/-- A check that has no result does not disturb the order. -/
theorem discard_bind {result : Except Failure α} {x : Inquiry β}
    (h : FailsOnly Failure.IsOwn result) (hx : x.Orderly) :
    (discard (ofExcept result) >>= fun _ => x).Orderly := by
  cases result with
  | ok a => exact hx
  | error failure => exact .done _ (uninterrupted_of_own (.error (h failure rfl)))

/-- A question that must have an answer, and what follows it. -/
theorem demand_bind {query : Query} {f : query.Answer → Inquiry β}
    (hfailure : ∀ fault, query.failure fault = .lookup query.lookup fault)
    (hf : ∀ answer, (f answer).Orderly) : (look >>= fun _ => demand query >>= f).Orderly := by
  refine .ask query (fun answer => (require query answer).bind f) (fun fault _ => ?_) ?_
  · rw [hfailure]
    rfl
  · rintro (fault | answer)
    · exact .done _ fun _ => nofun
    · exact hf answer

/-- A question to which the answer may be that there is nothing. -/
theorem seek {query : Query}
    (hfailure : ∀ fault, query.failure fault = .lookup query.lookup fault) :
    (look >>= fun _ => Inquiry.seek query).Orderly := by
  refine .ask query _ (fun fault hfault => ?_) ?_
  · rw [hfailure]
    cases fault with
    | noData => exact absurd rfl hfault
    | _ => rfl
  · rintro (fault | answer)
    · cases fault with
      | noData => exact .pure none
      | _ => exact .done _ fun _ => nofun
    · exact .pure (some answer)

end Orderly

/-! ### Runs -/

/-- A run is over by its `n`-th question, and not because of an interruption right after it. -/
def EndsBy (n : Nat) (run : List Query × Except Failure α) : Prop :=
  run.1.length < n ∨ run.1.length = n ∧ Uninterrupted run.2

/-- A run that ends by some question has asked no more. -/
theorem EndsBy.length_le {n : Nat} {run : List Query × Except Failure α} (h : EndsBy n run) :
    run.1.length ≤ n := by
  rcases h with h | ⟨h, -⟩
  · exact Nat.le_of_lt h
  · exact Nat.le_of_eq h

/-- A run that has asked no more has ended, or was interrupted right then. -/
theorem endsBy_or_interrupted {n : Nat} {run : List Query × Except Failure α}
    (h : run.1.length ≤ n) :
    EndsBy n run ∨ run.1.length = n ∧ ∃ cause, run.2 = .error (.interrupted cause) := by
  rcases Nat.lt_or_eq_of_le h with hlt | heq
  · exact .inl (.inl hlt)
  · by_cases hinterrupted : ∃ cause, run.2 = .error (.interrupted cause)
    · exact .inr ⟨heq, hinterrupted⟩
    · exact .inl (.inr ⟨heq, not_exists.mp hinterrupted⟩)

/-- What is left of a run that is interrupted after `n` questions. -/
def cutOff (n : Nat) (cause : Interruption) (run : List Query × Except Failure α) :
    List Query × Except Failure α :=
  (run.1.take n, .error (.interrupted cause))

/-- Before each question the request may be interrupted. -/
theorem run_question (world : World) (asked : Nat) (query : Query)
    (next : Except LookupFault query.Answer → Inquiry α) :
    (checkpoint (ask query next)).run world asked =
      match world.interruption asked with
      | some cause => ([], .error (.interrupted cause))
      | none =>
        let rest := (next (world.inventory asked query)).run world (asked + 1)
        (query :: rest.1, rest.2) := rfl

/-- **An interruption cuts a run off.**  Where one world is like another until it interrupts the
    request after `n` more questions, a run that is over by then is the same in both, and of any
    other the first `n` questions are left. -/
theorem Orderly.run_interrupted {x : Inquiry α} (hx : x.Orderly) (asked n : Nat)
    {world world' : World} {cause : Interruption} (hinventory : world'.inventory = world.inventory)
    (hbefore : ∀ k < n, world'.interruption (asked + k) = world.interruption (asked + k))
    (hn : world'.interruption (asked + n) = some cause) :
    (EndsBy n (x.run world asked) → x.run world' asked = x.run world asked) ∧
      (¬ EndsBy n (x.run world asked) →
        x.run world' asked = cutOff n cause (x.run world asked)) := by
  induction hx generalizing asked n with
  | done result honest =>
    refine ⟨fun _ => rfl, fun h => absurd ?_ h⟩
    rcases Nat.eq_zero_or_pos n with rfl | hpos
    · exact .inr ⟨rfl, honest⟩
    · exact .inl hpos
  | ask query next _ _ ih =>
    rw [run_question, run_question]
    cases n with
    | zero =>
      -- the request is interrupted before this question
      rw [Nat.add_zero] at hn
      simp only [hn]
      cases hcause : world.interruption asked with
      | some cause' =>
        refine ⟨fun h => ?_, fun _ => rfl⟩
        rcases h with h | ⟨-, h⟩
        · cases h
        · exact absurd rfl (h cause')
      | none =>
        refine ⟨fun h => ?_, fun _ => rfl⟩
        rcases h with h | ⟨h, -⟩ <;> cases h
    | succ n =>
      have hsame := hbefore 0 (Nat.succ_pos n)
      rw [Nat.add_zero] at hsame
      rw [hsame]
      cases world.interruption asked with
      | some cause' => exact ⟨fun _ => rfl, fun h => absurd (.inl (Nat.succ_pos n)) h⟩
      | none =>
        have hshift : ∀ k, asked + 1 + k = asked + (k + 1) := fun k => by omega
        obtain ⟨hends, hcut⟩ := ih (world.inventory asked query) (asked + 1) n
          (fun k hk => by rw [hshift]; exact hbefore (k + 1) (Nat.succ_lt_succ hk))
          (by rw [hshift]; exact hn)
        simp only [hinventory]
        constructor
        · intro h
          rw [hends (h.imp Nat.lt_of_succ_lt_succ (And.imp_left Nat.succ.inj))]
        · intro h
          rw [hcut fun h' => h (h'.imp Nat.succ_lt_succ (And.imp_left (congrArg Nat.succ)))]
          rfl

/-- No request asks on after an interruption. -/
theorem Orderly.length_le {x : Inquiry α} (hx : x.Orderly) {asked n : Nat} {world : World}
    {cause : Interruption} (hn : world.interruption (asked + n) = some cause) :
    (x.run world asked).1.length ≤ n := by
  obtain ⟨-, hcut⟩ := hx.run_interrupted asked n rfl (fun _ _ => rfl) hn
  by_cases h : EndsBy n (x.run world asked)
  · exact h.length_le
  · rw [hcut h]
    exact List.length_take_le n _

/-- A request says that it was interrupted only where it was. -/
theorem Orderly.interruption_of_run {x : Inquiry α} (hx : x.Orderly) {world : World} {asked : Nat}
    {cause : Interruption} (h : (x.run world asked).2 = .error (.interrupted cause)) :
    world.interruption (asked + (x.run world asked).1.length) = some cause := by
  induction hx generalizing asked with
  | done result honest => exact absurd h (honest cause)
  | ask query next _ _ ih =>
    rw [run_question] at h ⊢
    cases hcause : world.interruption asked with
    -- the run stops where it is interrupted, with nothing asked since
    | some cause' =>
      rw [hcause] at h
      cases h
      exact hcause
    | none =>
      rw [hcause] at h
      have hrest := ih (world.inventory asked query) h
      rw [Nat.add_right_comm] at hrest
      exact hrest

/-- **A question without an answer is the last one**, and the failure names it. -/
theorem Orderly.run_fault {x : Inquiry α} (hx : x.Orderly) {world : World} {asked k : Nat}
    {query : Query} {fault : LookupFault} (hquery : (x.run world asked).1[k]? = some query)
    (hanswer : world.inventory (asked + k) query = .error fault) (hfault : fault ≠ .noData) :
    (x.run world asked).1.length = k + 1 ∧
      (x.run world asked).2 = .error (query.failure fault) := by
  induction hx generalizing asked k with
  | done result _ => cases hquery
  | ask query' next givesUp _ ih =>
    rw [run_question] at hquery ⊢
    cases hcause : world.interruption asked with
    | some cause =>
      rw [hcause] at hquery
      cases hquery
    | none =>
      rw [hcause] at hquery
      -- the fault is the answer to the first question or to a later one
      cases k with
      | zero =>
        cases hquery
        rw [Nat.add_zero] at hanswer
        simp only [hanswer, givesUp fault hfault]
        exact ⟨rfl, rfl⟩
      | succ k =>
        have hshift : asked + 1 + k = asked + (k + 1) := by omega
        rw [← hshift] at hanswer
        obtain ⟨hlength, hresult⟩ := ih (world.inventory asked query') hquery hanswer
        exact ⟨congrArg Nat.succ hlength, hresult⟩

end Inquiry

end LicenseForecast
