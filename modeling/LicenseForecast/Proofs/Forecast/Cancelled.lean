import LicenseForecast.Proofs.Inquiry.Orderly

namespace LicenseForecast

/-!
# Requests that are called off

A forecast is `Orderly`: it looks for an interruption right before each of its questions and
nowhere else (`forecast_orderly`).  So a flag that is raised while the `n`-th question is being
answered leaves the first `n` questions of the forecast and no rows, unless that question was the
last one anyway (`forecast_cancelled`).
-/

/-! ### A forecast looks before each question -/

open Inquiry (Orderly)

/-- A chain is asked for in order. -/
theorem Chain.above_orderly (f : Forest) (rule : PooledRule) (id typeName : String) :
    (Chain.above f rule id typeName).Orderly := by
  refine .ask (.hierarchy id typeName rule.depth)
    (fun answer => .done (ofAnswer f rule id typeName answer))
    (fun fault hfault => ?_)
    fun answer => .done _ (Inquiry.uninterrupted_of_own
      (ofAnswer_fails .unknownEquipment (.lookup .hierarchy) f rule id typeName answer))
  cases fault with
  | noData => exact absurd rfl hfault
  | _ => rfl

/-- A metric is asked for in order. -/
theorem Inquiry.metric_orderly (family : Family) (name : String) :
    (Inquiry.metric family name).Orderly := by
  have hmetrics : (look >>= fun _ => metrics family).Orderly :=
    .demand_bind (fun _ => rfl) fun specs => .pure (specs.map (Metric.ofSpec family))
  refine hmetrics.bind fun all => .done _ (uninterrupted_of_own ?_)
  exact Metric.only_fails .unknownMetric .ambiguousMetric family name all

namespace Request

/-- The users of products are asked for in order, product by product. -/
theorem userRows_orderly (rule : PooledRule) (usersPerProcessor : Nat) (splice : Formula.Splice)
    (chain : Chain) (old new : Readings) (products : List Product) :
    (userRows rule usersPerProcessor splice chain old new products).Orderly := by
  induction products with
  | nil => exact .pure []
  | cons product rest ih =>
    have husers : ∀ readings, (users chain product rule readings).Orderly := fun _ =>
      .seek fun _ => rfl
    exact .bind (husers old) fun _ => .bind (husers new) fun _ => .bind ih fun _ => .pure _

/-- A rule that counts one machine alone asks in order. -/
theorem direct_orderly (request : Request) (rule : DirectRule) (old new : Readings) :
    (direct request rule old new).Orderly := by
  have hfails := Formula.directLicenses_fails Failure.IsOwn.invalidAttribute rule
  refine .ofExcept_bind (hfails old) fun _ => ?_
  refine .ofExcept_bind (hfails new) fun _ => ?_
  refine .bind (.seek fun _ => rfl) fun found => ?_
  cases found <;> exact .pure _

/-- A rule that counts pools asks in order. -/
theorem pooled_orderly (rule : PooledRule) (chain : Chain) (old new : Readings) :
    (pooled rule chain old new).Orderly := by
  have hfails := Formula.contribution_fails Failure.IsOwn.invalidAttribute rule
  refine .ofExcept_bind (hfails old) fun oldContribution => ?_
  refine .ofExcept_bind (hfails new) fun newContribution => ?_
  refine .bind (.seek fun _ => rfl) fun found => ?_
  cases found with
  -- without products nothing else is asked
  | none => exact .pure _
  | some products =>
    refine .demand_bind (fun _ => rfl) fun oldTotal => ?_
    refine .demand_bind (fun _ => rfl) fun pool => ?_
    cases hthreshold : threshold? rule with
    | none =>
      simp only
      exact .pure _
    | some usersPerProcessor =>
      simp only
      exact .bind (userRows_orderly ..) fun _ => .pure _

/-- **A forecast looks right before each question**, and ends with the first that has no answer. -/
theorem forecast_orderly (request : Request) : request.forecast.Orderly := by
  refine .ofExcept_bind (Family.ofRequest_fails .unsupportedFamily _) fun family => ?_
  refine .ofExcept_bind (Readings.beforeAndAfter_fails .invalidAttribute _) fun sides => ?_
  refine .demand_bind (fun _ => rfl) fun types => ?_
  refine .ofExcept_bind (Forest.ofTypes_fails .invalidForest types) fun forest => ?_
  refine .discard_bind (checkType_fails .unknownType forest request.typeName) ?_
  refine .bind (Inquiry.metric_orderly family request.metricName) fun metric => ?_
  refine .ofExcept_bind (Metric.resolve_fails .invalidMetric forest metric) fun rule => ?_
  refine .ofExcept_bind (checkBase_fails .wrongType rule request.typeName) fun _ => ?_
  cases rule with
  | direct rule => exact direct_orderly request rule _ _
  | pooled rule =>
    refine .bind (Chain.above_orderly ..) fun chain => pooled_orderly rule chain _ _

end Request

/-! ### Flags and deadlines -/

/-- The flags while a request goes on, if its own is raised while its `n`-th question is being
    answered, or before it starts. -/
def Flags.raisedAt (flag : Flag) (n asked : Nat) : Flags :=
  if n ≤ asked then Flags.raise {} flag else {}

/-- What a request meets in a context whose deadline and flags stand as they do after each number
    of questions. -/
def Context.world (context : Context) (answers : Nat → Inventory)
    (deadline : Nat → Option Deadline) (flags : Nat → Flags) : Inquiry.World where
  inventory := answers
  interruption asked :=
    ({ context with deadline := deadline asked } : Context).interruption (flags asked)

namespace Context

variable {context : Context} {answers : Nat → Inventory} {deadline : Nat → Option Deadline}
  {n k : Nat}

/-- Without a flag only a deadline interrupts. -/
private theorem interruption_free :
    (context.world answers deadline fun _ => {}).interruption k
      = if deadline k = some .past then some .deadlineExceeded else none := rfl

/-- From the moment at which the flag is raised the request is cancelled. -/
private theorem interruption_raisedAt (h : n ≤ k) :
    (context.world answers deadline (Flags.raisedAt context.flag n)).interruption k
      = some .cancelled := by
  have hraised : (Flags.raisedAt context.flag n k).isRaised context.flag = true := by
    unfold Flags.raisedAt Flags.isRaised
    rw [if_pos h]
    exact List.contains_iff_mem.mpr List.mem_cons_self
  show interruption _ _ = _
  unfold interruption
  exact if_pos hraised

/-- Before that moment the flag makes no difference. -/
private theorem interruption_before (h : k < n) :
    (context.world answers deadline (Flags.raisedAt context.flag n)).interruption k
      = (context.world answers deadline fun _ => {}).interruption k := by
  have hflags : Flags.raisedAt context.flag n k = {} := if_neg (Nat.not_le.mpr h)
  show interruption _ (Flags.raisedAt context.flag n k) = _
  rw [hflags]
  rfl

end Context

namespace Request

/-- Only a deadline interrupts a forecast that is never called off. -/
private theorem past_of_interrupted {request : Request} {context : Context}
    {answers : Nat → Inventory} {deadline : Nat → Option Deadline} {cause : Interruption}
    (h : (request.forecast.run (context.world answers deadline fun _ => {}) 0).2
      = .error (.interrupted cause)) :
    cause = .deadlineExceeded ∧
      deadline (request.forecast.run (context.world answers deadline fun _ => {}) 0).1.length
        = some .past := by
  have hat := request.forecast_orderly.interruption_of_run h
  rw [Nat.zero_add, Context.interruption_free] at hat
  split at hat
  next hpast =>
    cases hat
    exact ⟨rfl, hpast⟩
  · cases hat

/-- **Cancellation at any point.**  A forecast whose flag is raised while its `n`-th question is
    being answered is the forecast that is never called off if that asks no more than `n` questions.
    Otherwise it has asked the first `n` of them, and ends without any row.  The flag is looked at
    before the deadline, so it also is the cause where both are met at once. -/
theorem forecast_cancelled (request : Request) (context : Context) (answers : Nat → Inventory)
    (deadline : Nat → Option Deadline) (n : Nat) :
    let free := request.forecast.run (context.world answers deadline fun _ => {}) 0
    let cancelled :=
      request.forecast.run (context.world answers deadline (Flags.raisedAt context.flag n)) 0
    (deadline n ≠ some .past →
      cancelled = if free.1.length ≤ n then free
        else (free.1.take n, .error (.interrupted .cancelled))) ∧
    (deadline n = some .past → cancelled.1 = free.1 ∧
      (cancelled.2 = free.2 ∨ free.2 = .error (.interrupted .deadlineExceeded) ∧
        cancelled.2 = .error (.interrupted .cancelled))) := by
  intro free cancelled
  have horderly := request.forecast_orderly
  have hanswers : (context.world answers deadline (Flags.raisedAt context.flag n)).inventory
      = (context.world answers deadline fun _ => {}).inventory := rfl
  obtain ⟨hends, hcut⟩ := horderly.run_interrupted 0 n hanswers
    (fun k hk => Context.interruption_before (by omega))
    (Context.interruption_raisedAt (Nat.le_add_left n 0))
  constructor
  · intro hnot
    split
    next hle =>
      rcases Inquiry.endsBy_or_interrupted hle with h | ⟨heq, cause, hcause⟩
      · exact hends h
      · exact absurd (heq ▸ (past_of_interrupted hcause).2) hnot
    next hlt => exact hcut fun h => hlt h.length_le
  · intro hpast
    -- both runs stop here at the latest
    have hnow : (context.world answers deadline fun _ => {}).interruption (0 + n)
        = some .deadlineExceeded := by
      rw [Nat.zero_add, Context.interruption_free, if_pos hpast]
    have hle : free.1.length ≤ n := horderly.length_le hnow
    by_cases h : Inquiry.EndsBy n free
    · rw [show cancelled = free from hends h]
      exact ⟨rfl, .inl rfl⟩
    · obtain ⟨-, cause, hcause⟩ := (Inquiry.endsBy_or_interrupted hle).resolve_left h
      rw [show cancelled = _ from hcut h]
      obtain ⟨rfl, -⟩ := past_of_interrupted hcause
      exact ⟨List.take_of_length_le hle, .inr ⟨hcause, rfl⟩⟩

end Request

end LicenseForecast
