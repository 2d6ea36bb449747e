import PotholeServer.Ingest.RateLimit

/-!
# Refused calls

`_prune_and_increment` adds the count of a call to its bucket before `check_rate_limit` compares
the total with the limit. A refused call is therefore counted like an admitted one for as long as
its bucket stays in the window, and can refuse later calls that would fit without it.
-/

namespace PotholeServer.Ingest

variable {K : Type} [Field K] [LinearOrder K]

/-- The call is for this device and resource, and its bucket starts in the hour before `T`. -/
def counted [FloorRing K] (deviceId resource : String) (T : K) (c : Call K) : Bool :=
  c.resource = resource ∧ c.deviceId = deviceId ∧ T - windowSeconds ≤ currentBucketTs c.now

omit [Field K] [LinearOrder K] in
/-- The total count of the selected calls. -/
def callTotal (p : Call K → Bool) (calls : List (Call K)) : Int :=
  ((calls.filter p).map Call.count).sum

variable [FloorRing K] (settings : Settings K) (limits : RateLimits K)

/-- The answer to a call that comes after others. -/
def answerOf (before : List (Call K)) (c : Call K) : Except RateLimitExceeded Unit :=
  (checkRateLimit settings (answerFrom settings limits before).1 c.deviceId c.resource c.count
    c.now).2

/-- The total that `_prune_and_increment` returns for a call after others: what the stores counted
at first, every call whose bucket is in the window, admitted or not, and its own count. -/
def currentTotal (before : List (Call K)) (c : Call K) : Int :=
  getCurrentCount (limits.store c.resource c.deviceId) c.now +
    callTotal (counted c.deviceId c.resource c.now) before + c.count

omit [Field K] [LinearOrder K] [FloorRing K] in
theorem callTotal_append (p : Call K → Bool) (xs ys : List (Call K)) :
    callTotal p (xs ++ ys) = callTotal p xs + callTotal p ys := by
  simp [callTotal]

omit [Field K] [LinearOrder K] [FloorRing K] in
theorem callTotal_cons (p : Call K → Bool) (c : Call K) (calls : List (Call K)) :
    callTotal p (c :: calls) = (if p c then c.count else 0) + callTotal p calls := by
  unfold callTotal
  by_cases h : p c
  · simp [h]
  · simp [h]

/-- Admitted or not, an answered call counts with its call. -/
theorem total_inBuckets (deviceId resource : String) (T : K) (as : List (Answered K)) :
    total (inBuckets deviceId resource T) as =
      callTotal (counted deviceId resource T) (as.map Answered.toCall) := by
  induction as with
  | nil => rfl
  | cons a as ih =>
    rw [List.map_cons, callTotal_cons, ← ih, ← List.singleton_append, total_append, total_singleton]
    rfl

theorem answers_concat (calls : List (Call K)) (c : Call K) :
    (answerFrom settings limits (calls ++ [c])).2 = (answerFrom settings limits calls).2 ++
      [{ toCall := c, answer := answerOf settings limits calls c }] := by
  rw [answerFrom_concat]
  rfl

/-- A call without a limit is admitted. -/
theorem checkRateLimit_of_not_limited (deviceId : String) {resource : String} (count : Int)
    (now : K) (h : ¬Limited resource) :
    (checkRateLimit settings limits deviceId resource count now).2 = .ok () := by
  rw [Limited, not_or] at h
  simp [checkRateLimit, h.1, h.2]

variable [IsStrictOrderedRing K]

/-- The current bucket is in the window. -/
theorem cutoff_le_currentBucketTs (now : K) : now - windowSeconds ≤ currentBucketTs now := by
  have h := sub_lt_currentBucketTs now
  norm_num [bucketSeconds, windowSeconds] at h ⊢
  linarith

/-- A limited call is answered by comparing the counts in its window with the limit. -/
theorem checkRateLimit_of_limited (deviceId : String) {resource : String} (count : Int) (now : K)
    (h : Limited resource) :
    (checkRateLimit settings limits deviceId resource count now).2 =
      enforce deviceId resource (limitOf settings resource)
        (getCurrentCount (limits.store resource deviceId) now + count) := by
  have htotal : ∀ b : Buckets K,
      getCurrentCount (increment (prune b now) (currentBucketTs now) count) now =
        getCurrentCount b now + count := by
    intro b
    rw [getCurrentCount_increment, getCurrentCount_prune _ (le_refl now),
      if_pos (cutoff_le_currentBucketTs now)]
  rcases h with rfl | rfl
  · simp [checkRateLimit, pruneAndIncrement, RateLimits.store, limitOf, htotal]
  · simp [checkRateLimit, pruneAndIncrement, RateLimits.store, limitOf, htotal]

variable {before calls : List (Call K)} {c : Call K}

/-- The answer of a limited call, in a run whose clock does not go back. -/
theorem answerOf_eq (hsorted : (before ++ [c]).Pairwise (fun a b ↦ a.now ≤ b.now))
    (h : Limited c.resource) :
    answerOf settings limits before c = enforce c.deviceId c.resource
      (limitOf settings c.resource) (currentTotal limits before c) := by
  have hlast : ∀ x ∈ before, x.now ≤ c.now := fun x hx ↦
    (List.pairwise_append.mp hsorted).2.2 x hx c (List.mem_singleton.mpr rfl)
  have hcount := getCurrentCount_answerFrom settings c.deviceId limits h
    (List.pairwise_append.mp hsorted).1 hlast
  rw [total_inBuckets, toCall_answerFrom] at hcount
  rw [answerOf, checkRateLimit_of_limited settings _ _ _ _ h, hcount]
  rfl

/-- A call is refused exactly if the counts in its window, with its own, exceed the limit. -/
theorem refused_iff (hsorted : (before ++ [c]).Pairwise (fun a b ↦ a.now ≤ b.now)) :
    (answerOf settings limits before c).isOk = false ↔
      Limited c.resource ∧ limitOf settings c.resource < currentTotal limits before c := by
  by_cases h : Limited c.resource
  · rw [answerOf_eq settings limits hsorted h, enforce]
    split
    · next hlt => simp [h, hlt, Except.isOk, Except.toBool]
    · next hle => simp [hle, Except.isOk, Except.toBool]
  · rw [answerOf, checkRateLimit_of_not_limited settings _ _ _ _ h]
    simp [h, Except.isOk, Except.toBool]

/-! ### Runs with and without a call -/

/-- What the deletion of the call `c` leaves of an answer: an admitted call stays admitted, and a
call in whose window `c` is not counted gets the same answer. -/
structure Spared (c : Call K) (a a' : Answered K) : Prop where
  sameCall : a'.toCall = a.toCall
  admitted : a.admitted = true → a'.admitted = true
  outside : counted a.deviceId a.resource a.now c = false → a'.answer = a.answer

/-- One later call, with and without `c` in the run before it. -/
theorem spared_answerOf {mid : List (Call K)} {d : Call K} (hc : 0 ≤ c.count)
    (hsorted : (before ++ c :: (mid ++ [d])).Pairwise (fun a b ↦ a.now ≤ b.now)) :
    Spared c { toCall := d, answer := answerOf settings limits (before ++ c :: mid) d }
      { toCall := d, answer := answerOf settings limits (before ++ mid) d } := by
  have hwith : (before ++ c :: mid ++ [d]).Pairwise (fun a b ↦ a.now ≤ b.now) := by
    rw [List.append_assoc]
    exact hsorted
  have hwithout : (before ++ mid ++ [d]).Pairwise (fun a b ↦ a.now ≤ b.now) := by
    rw [List.append_assoc]
    exact hsorted.sublist ((List.sublist_cons_self _ _).append_left before)
  have htotal : currentTotal limits (before ++ c :: mid) d = currentTotal limits (before ++ mid) d +
      if counted d.deviceId d.resource d.now c then c.count else 0 := by
    unfold currentTotal
    rw [callTotal_append, callTotal_append, callTotal_cons]
    ring
  refine ⟨rfl, ?_, ?_⟩
  · intro hadmitted
    -- a refusal without `c` would be one with it, whose total is at least as large
    by_contra hrefused
    have hlt := (refused_iff settings limits hwithout).mp (eq_false_of_ne_true hrefused)
    have hle :
        currentTotal limits (before ++ mid) d ≤ currentTotal limits (before ++ c :: mid) d := by
      rw [htotal]
      split <;> omega
    have hfalse := (refused_iff settings limits hwith).mpr ⟨hlt.1, hlt.2.trans_le hle⟩
    exact Bool.false_ne_true (hfalse.symm.trans hadmitted)
  · intro hout
    rw [if_neg (by simpa using hout), add_zero] at htotal
    by_cases h : Limited d.resource
    · show answerOf _ _ _ _ = answerOf _ _ _ _
      rw [answerOf_eq settings limits hwith h, answerOf_eq settings limits hwithout h, htotal]
    · show answerOf _ _ _ _ = answerOf _ _ _ _
      rw [answerOf, answerOf, checkRateLimit_of_not_limited settings _ _ _ _ h,
        checkRateLimit_of_not_limited settings _ _ _ _ h]

/-- The run without `c` answers the calls before it alike, and spares those after it. -/
theorem answers_without {after : List (Call K)} (hc : 0 ≤ c.count)
    (hsorted : (before ++ c :: after).Pairwise (fun a b ↦ a.now ≤ b.now)) :
    ∃ kept kept', (answerFrom settings limits (before ++ c :: after)).2 =
        (answerFrom settings limits before).2 ++
          { toCall := c, answer := answerOf settings limits before c } :: kept ∧
      (answerFrom settings limits (before ++ after)).2 =
        (answerFrom settings limits before).2 ++ kept' ∧
      List.Forall₂ (Spared c) kept kept' := by
  induction after using List.reverseRecOn with
  | nil => exact ⟨[], [], answers_concat .., by simp, .nil⟩
  | append_singleton mid d ih =>
    have hprefix : (before ++ c :: mid).Sublist (before ++ c :: (mid ++ [d])) :=
      ((List.sublist_append_left mid [d]).cons_cons c).append_left before
    obtain ⟨kept, kept', hrun, hrun', hspared⟩ := ih (hsorted.sublist hprefix)
    refine ⟨kept ++ [{ toCall := d, answer := answerOf settings limits (before ++ c :: mid) d }],
      kept' ++ [{ toCall := d, answer := answerOf settings limits (before ++ mid) d }], ?_, ?_, ?_⟩
    · rw [← List.cons_append, ← List.append_assoc, answers_concat, hrun]
      simp
    · rw [← List.append_assoc, answers_concat, hrun']
      simp
    · exact List.rel_append hspared (.cons (spared_answerOf settings limits hc hsorted) .nil)

/-- In any run from any stores a refused call counts like an admitted one: a call is refused
exactly if all the counts in its window exceed the limit with its own. Without a refused call the
earlier calls are answered as before, the admitted ones stay admitted, and those in whose window
it is not counted get the same answer. -/
theorem refused_is_counted (before after : List (Call K)) (c : Call K)
    (hsorted : (before ++ c :: after).Pairwise (fun a b ↦ a.now ≤ b.now))
    (hcount : ∀ x ∈ before ++ c :: after, 1 ≤ x.count) :
    ((answerOf settings limits before c).isOk = false ↔
        Limited c.resource ∧ limitOf settings c.resource < currentTotal limits before c) ∧
      ((answerOf settings limits before c).isOk = false →
        ∃ kept kept', (answerFrom settings limits (before ++ c :: after)).2 =
            (answerFrom settings limits before).2 ++
              { toCall := c, answer := answerOf settings limits before c } :: kept ∧
          (answerFrom settings limits (before ++ after)).2 =
            (answerFrom settings limits before).2 ++ kept' ∧
          List.Forall₂ (Spared c) kept kept') := by
  have hc := hcount c (List.mem_append_right _ (List.mem_cons_self ..))
  have hfirst : (before ++ [c]).Sublist (before ++ c :: after) :=
    ((List.nil_sublist after).cons_cons c).append_left before
  exact ⟨refused_iff settings limits (hsorted.sublist hfirst),
    fun _ ↦ answers_without settings limits (by omega) hsorted⟩

/-- A batch over the limit. -/
def largeBatch : Call ℚ := ⟨"device", "events", 101, 1767225600⟩

/-- One event, a second later. -/
def oneEvent : Call ℚ := ⟨"device", "events", 1, 1767225601⟩

/-- The large batch exceeds the limit by itself; the event after it is spared its deletion. -/
theorem refused_is_counted_largeBatch :
    (Limited "events" ∧ limitOf (Settings.default ℚ) "events" <
        currentTotal .empty [] largeBatch) ∧
      ∃ kept kept', (answerFrom (Settings.default ℚ) .empty [largeBatch, oneEvent]).2 =
          { toCall := largeBatch, answer := answerOf (Settings.default ℚ) .empty [] largeBatch } ::
            kept ∧
        (answerFrom (Settings.default ℚ) .empty [oneEvent]).2 = kept' ∧
        List.Forall₂ (Spared largeBatch) kept kept' := by
  have h := refused_is_counted (Settings.default ℚ) .empty [] [oneEvent] largeBatch
    (by decide +kernel) (by decide)
  have hrefused : (answerOf (Settings.default ℚ) .empty [] largeBatch).isOk = false := by
    decide +kernel
  exact ⟨h.1.mp hrefused, h.2 hrefused⟩

/-- The refused batch refuses the event after it, which is admitted without the batch. -/
theorem refused_call_refuses_next : ¬∀ (before mid : List (Call ℚ)) (c d : Call ℚ),
    (before ++ c :: (mid ++ [d])).Pairwise (fun a b ↦ a.now ≤ b.now) →
      (∀ x ∈ before ++ c :: (mid ++ [d]), 1 ≤ x.count) →
        (answerOf (Settings.default ℚ) .empty before c).isOk = false →
          (answerOf (Settings.default ℚ) .empty (before ++ mid) d).isOk =
            (answerOf (Settings.default ℚ) .empty (before ++ c :: mid) d).isOk := by
  intro h
  have hsame := h [] [] largeBatch oneEvent (by decide +kernel) (by decide) (by decide +kernel)
  have hwith : (answerOf (Settings.default ℚ) .empty [largeBatch] oneEvent).isOk = false := by
    decide +kernel
  have hwithout : (answerOf (Settings.default ℚ) .empty [] oneEvent).isOk = true := by
    decide +kernel
  exact Bool.false_ne_true (hwith.symm.trans (hsame.symm.trans hwithout))

end PotholeServer.Ingest
