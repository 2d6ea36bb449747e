import Mathlib.Algebra.Order.Floor.Ring
import Mathlib.Algebra.Order.Field.Rat
import Mathlib.Data.List.Induction
import Mathlib.Data.Rat.Floor
import Mathlib.Tactic.Linarith
import PotholeServer.Runs
import PotholeServer.Base

/-!
# Rate limiting

`app/middleware/rate_limit.py`. Counts are kept in one-minute buckets, and a bucket is inside
the hour when its first second is: `_prune_and_increment` compares the start of a bucket, not
the times of its calls, with the cutoff. The limit therefore governs buckets: it bounds the
calls whose bucket starts within the last hour, and with them every window of 59 minutes. A
call in the last hour whose bucket started before it is no longer counted, and the limit of an hour
holds as long as no call comes while there is one.
-/

namespace PotholeServer.Ingest

variable {K : Type}

/-- `HTTPException(status_code=429, detail=..)` -/
structure RateLimitExceeded where
  statusCode : Nat := 429
  error : String := "rate_limit_exceeded"
  deviceId : String
  resource : String
  limit : Int
  window : String := "1 hour"
  current : Int
  deriving DecidableEq, Repr

/-! ### Calls and their totals -/

/-- One call of `check_rate_limit`, with its clock reading. -/
structure Call (K : Type) where
  deviceId : String
  resource : String
  count : Int
  now : K

/-- A call and how it ended. -/
structure Answered (K : Type) extends Call K where
  answer : Except RateLimitExceeded Unit

/-- The call did not raise. -/
def Answered.admitted (a : Answered K) : Bool := a.answer.isOk

/-- The total count of the selected calls. -/
def total (p : Answered K → Bool) (as : List (Answered K)) : Int :=
  ((as.filter p).map (fun a ↦ a.count)).sum

theorem total_append (p : Answered K → Bool) (as bs : List (Answered K)) :
    total p (as ++ bs) = total p as + total p bs := by
  simp [total]

theorem total_singleton (p : Answered K → Bool) (a : Answered K) :
    total p [a] = if p a then a.count else 0 := by
  unfold total
  by_cases h : p a
  · simp [h]
  · simp [h]

/-- A weaker condition selects at least as much, when no count is negative. -/
theorem total_mono {p q : Answered K → Bool} {as : List (Answered K)}
    (hcount : ∀ a ∈ as, 0 ≤ a.count) (hpq : ∀ a ∈ as, p a → q a) : total p as ≤ total q as := by
  induction as with
  | nil => exact le_refl _
  | cons a rest ih =>
    have hrest := ih (fun b hb ↦ hcount b (List.mem_cons_of_mem _ hb))
      (fun b hb ↦ hpq b (List.mem_cons_of_mem _ hb))
    have ha := hcount a (List.mem_cons_self ..)
    have hpa := hpq a (List.mem_cons_self ..)
    rw [← List.singleton_append, total_append, total_append, total_singleton, total_singleton]
    by_cases hp : p a
    · simp only [hp, hpa hp, if_true]
      omega
    · simp only [hp, Bool.false_eq_true, if_false]
      split <;> omega

/-! ### Buckets -/

variable [Field K] [LinearOrder K]

/-- `_BUCKET_SECONDS` -/
def bucketSeconds : Int := 60

/-- `_WINDOW_SECONDS` -/
def windowSeconds : Int := 3600

/-- The buckets of one device, oldest first. -/
abbrev Buckets (K : Type) := List (K × Int)

/-- `_get_current_count` -/
def getCurrentCount (buckets : Buckets K) (now : K) : Int :=
  let cutoff := now - windowSeconds
  ((buckets.filter (fun b ↦ cutoff ≤ b.1)).map Prod.snd).sum

/-- Prune expired buckets. -/
def prune (buckets : Buckets K) (now : K) : Buckets K :=
  let cutoff := now - windowSeconds
  buckets.filter (fun b ↦ cutoff ≤ b.1)

/-- Find or create the current bucket and add to it. -/
def increment (buckets : Buckets K) (ts : K) (count : Int) : Buckets K :=
  match buckets.getLast? with
  | some last =>
    if last.1 = ts then buckets.dropLast ++ [(ts, last.2 + count)] else buckets ++ [(ts, count)]
  | none => buckets ++ [(ts, count)]

theorem getCurrentCount_append (b b' : Buckets K) (t : K) :
    getCurrentCount (b ++ b') t = getCurrentCount b t + getCurrentCount b' t := by
  simp only [getCurrentCount, List.filter_append, List.map_append, List.sum_append]

theorem getCurrentCount_singleton (ts : K) (c : Int) (t : K) :
    getCurrentCount [(ts, c)] t = if t - windowSeconds ≤ ts then c else 0 := by
  unfold getCurrentCount
  simp only [List.filter_cons, List.filter_nil, decide_eq_true_eq]
  split
  · simp
  · rfl

/-- An increment counts as long as its bucket is in the window, in a new bucket or not. -/
theorem getCurrentCount_increment (b : Buckets K) (ts : K) (c : Int) (t : K) :
    getCurrentCount (increment b ts c) t =
      getCurrentCount b t + if t - windowSeconds ≤ ts then c else 0 := by
  unfold increment
  cases hlast : b.getLast? with
  | none =>
    dsimp only
    rw [getCurrentCount_append, getCurrentCount_singleton]
  | some last =>
    dsimp only
    split
    · next hts =>
      have hb : b.dropLast ++ [last] = b := List.dropLast_append_getLast? last hlast
      have hcount := getCurrentCount_append b.dropLast [last] t
      rw [hb, getCurrentCount_singleton last.1 last.2, hts] at hcount
      rw [getCurrentCount_append, getCurrentCount_singleton, hcount]
      split <;> omega
    · rw [getCurrentCount_append, getCurrentCount_singleton]

/-- What pruning removes is outside every later window. -/
theorem getCurrentCount_prune [IsStrictOrderedRing K] (b : Buckets K) {now t : K} (h : now ≤ t) :
    getCurrentCount (prune b now) t = getCurrentCount b t := by
  unfold getCurrentCount prune
  dsimp only
  rw [List.filter_filter]
  congr 2
  apply List.filter_congr
  intro x _
  rw [Bool.and_eq_left_iff_imp, decide_eq_true_eq, decide_eq_true_eq]
  exact (sub_le_sub_right h _).trans

/-! ### The limiter -/

variable [FloorRing K]

/-- `int(x)`: truncation towards zero. -/
def pyInt (x : K) : Int := if 0 ≤ x then ⌊x⌋ else ⌈x⌉

/-- `int(now / _BUCKET_SECONDS) * _BUCKET_SECONDS` -/
def currentBucketTs (now : K) : K := ((pyInt (now / bucketSeconds) * bucketSeconds : Int) : K)

/-- A `defaultdict(list)` from device ids to buckets. -/
abbrev BucketStore (K : Type) := String → Buckets K

/-- `_prune_and_increment`: the store afterwards and the total in the window. -/
def pruneAndIncrement (store : BucketStore K) (deviceId : String) (count : Int) (now : K) :
    BucketStore K × Int :=
  let buckets := increment (prune (store deviceId) now) (currentBucketTs now) count
  (Function.update store deviceId buckets, getCurrentCount buckets now)

/-- The two stores of the process. -/
structure RateLimits (K : Type) where
  eventBuckets : BucketStore K
  frameBuckets : BucketStore K

/-- The stores of a new process. -/
def RateLimits.empty : RateLimits K := ⟨fun _ ↦ [], fun _ ↦ []⟩

/-- The second half of `check_rate_limit`: compare the total with the limit. -/
def enforce (deviceId resource : String) (limit currentTotal : Int) :
    Except RateLimitExceeded Unit :=
  if limit < currentTotal then
    .error { deviceId := deviceId, resource := resource, limit := limit, current := currentTotal }
  else
    .ok ()

/-- `check_rate_limit`; an unknown resource is not limited. -/
def checkRateLimit (settings : Settings K) (limits : RateLimits K)
    (deviceId resource : String) (count : Int) (now : K) :
    RateLimits K × Except RateLimitExceeded Unit :=
  if resource = "events" then
    let r := pruneAndIncrement limits.eventBuckets deviceId count now
    ({ limits with eventBuckets := r.1 },
      enforce deviceId resource settings.rateLimitEventsPerHour r.2)
  else if resource = "frames" then
    let r := pruneAndIncrement limits.frameBuckets deviceId count now
    ({ limits with frameBuckets := r.1 },
      enforce deviceId resource settings.rateLimitFramesPerHour r.2)
  else
    (limits, .ok ())

/-- One call after those answered so far. -/
def answerCall (settings : Settings K) (s : RateLimits K × List (Answered K)) (c : Call K) :
    RateLimits K × List (Answered K) :=
  let r := checkRateLimit settings s.1 c.deviceId c.resource c.count c.now
  (r.1, s.2 ++ [{ toCall := c, answer := r.2 }])

/-- Calls from given stores on: the stores and the answers. -/
def answerFrom (settings : Settings K) (limits : RateLimits K) (calls : List (Call K)) :
    RateLimits K × List (Answered K) :=
  calls.foldl (answerCall settings) (limits, [])

/-- All calls of a process, from its start: the stores and the answers. -/
def answerCalls (settings : Settings K) (calls : List (Call K)) :
    RateLimits K × List (Answered K) :=
  calls.foldl (answerCall settings) (.empty, [])

/-- The resources that are limited. -/
def Limited (resource : String) : Prop := resource = "events" ∨ resource = "frames"

/-- The limit of a resource. -/
def limitOf (settings : Settings K) (resource : String) : Int :=
  if resource = "events" then settings.rateLimitEventsPerHour
  else settings.rateLimitFramesPerHour

/-- The store of a resource. -/
def RateLimits.store (limits : RateLimits K) (resource : String) : BucketStore K :=
  if resource = "events" then limits.eventBuckets else limits.frameBuckets

omit [Field K] [LinearOrder K] [FloorRing K] in
theorem store_empty (resource deviceId : String) :
    (RateLimits.empty : RateLimits K).store resource deviceId = [] := by
  unfold RateLimits.store
  split <;> rfl

section OneCall

variable (settings : Settings K) (limits : RateLimits K) {resource : String}

/-- A call changes the bucket list of its own device and resource and no other. -/
theorem store_checkRateLimit (hr : Limited resource) (d : String) (c : Call K) :
    (checkRateLimit settings limits c.deviceId c.resource c.count c.now).1.store resource d =
      if c.resource = resource ∧ c.deviceId = d then
        increment (prune (limits.store resource d) c.now) (currentBucketTs c.now) c.count
      else limits.store resource d := by
  unfold checkRateLimit RateLimits.store pruneAndIncrement
  by_cases he : c.resource = "events"
  · rcases hr with rfl | rfl
    · by_cases hd : d = c.deviceId
      · subst hd
        simp [he]
      · have hd' : c.deviceId ≠ d := fun h ↦ hd h.symm
        simp [he, hd, hd']
    · simp [he]
  · by_cases hf : c.resource = "frames"
    · rcases hr with rfl | rfl
      · simp [hf]
      · by_cases hd : d = c.deviceId
        · subst hd
          simp [hf]
        · have hd' : c.deviceId ≠ d := fun h ↦ hd h.symm
          simp [hf, hd, hd']
    · have hother : c.resource ≠ resource := by
        rintro rfl
        exact hr.elim he hf
      simp [he, hf, hother]

/-- An admitted call leaves a total in its window that is within the limit. -/
theorem getCurrentCount_of_admitted (c : Call K) (hr : Limited c.resource)
    (h : (checkRateLimit settings limits c.deviceId c.resource c.count c.now).2.isOk = true) :
    getCurrentCount
        ((checkRateLimit settings limits c.deviceId c.resource c.count c.now).1.store c.resource
          c.deviceId) c.now ≤ limitOf settings c.resource := by
  unfold checkRateLimit enforce at h
  unfold checkRateLimit RateLimits.store limitOf
  rcases hr with he | hf
  · simp only [he, if_true] at h ⊢
    split at h
    · cases h
    · next hle => simpa [pruneAndIncrement] using hle
  · have hne : ¬"frames" = "events" := by decide
    simp only [hf, hne, if_false, if_true] at h ⊢
    split at h
    · cases h
    · next hle => simpa [pruneAndIncrement] using hle

end OneCall

/-! ### Runs -/

/-- The call is for this device and resource, and its bucket starts in the hour before `T`. -/
def inBuckets (deviceId resource : String) (T : K) (a : Answered K) : Bool :=
  a.resource = resource ∧ a.deviceId = deviceId ∧ T - windowSeconds ≤ currentBucketTs a.now

/-- The call was admitted, at most at `T`, and its bucket starts in the hour before `T`. -/
def admittedInBuckets (deviceId resource : String) (T : K) (a : Answered K) : Bool :=
  a.admitted ∧ inBuckets deviceId resource T a ∧ a.now ≤ T

/-- The call was admitted in the given number of seconds before `T`. -/
def admittedWithin (deviceId resource : String) (seconds T : K) (a : Answered K) : Bool :=
  a.admitted ∧ a.resource = resource ∧ a.deviceId = deviceId ∧ T - seconds < a.now ∧ a.now ≤ T

section Run

variable (settings : Settings K) {resource : String} (deviceId : String)

theorem answerFrom_concat (limits : RateLimits K) (calls : List (Call K)) (c : Call K) :
    answerFrom settings limits (calls ++ [c]) =
      answerCall settings (answerFrom settings limits calls) c := by
  rw [answerFrom, List.foldl_append]
  rfl

theorem answerCalls_concat (calls : List (Call K)) (c : Call K) :
    answerCalls settings (calls ++ [c]) = answerCall settings (answerCalls settings calls) c :=
  answerFrom_concat settings .empty calls c

/-- The calls are answered in order. -/
theorem toCall_answerFrom (limits : RateLimits K) (calls : List (Call K)) :
    (answerFrom settings limits calls).2.map Answered.toCall = calls := by
  induction calls using List.reverseRecOn with
  | nil => rfl
  | append_singleton calls c ih =>
    rw [answerFrom_concat, answerCall, List.map_append, ih]
    rfl

theorem mem_calls_of_answered {calls : List (Call K)} {a : Answered K}
    (ha : a ∈ (answerCalls settings calls).2) : a.toCall ∈ calls := by
  rw [← toCall_answerFrom settings .empty calls]
  exact List.mem_map_of_mem ha

theorem count_nonneg_of_answered {calls : List (Call K)} (hcount : ∀ c ∈ calls, 1 ≤ c.count) :
    ∀ a ∈ (answerCalls settings calls).2, 0 ≤ a.count := by
  intro a ha
  have := hcount _ (mem_calls_of_answered settings ha)
  omega

variable [IsStrictOrderedRing K]

/-- At any time after the calls, a store counts what it counted at first, and the calls, admitted
or not, whose bucket starts in the hour before. -/
theorem getCurrentCount_answerFrom (limits : RateLimits K) (hr : Limited resource)
    {calls : List (Call K)} (hsorted : calls.Pairwise (fun a b ↦ a.now ≤ b.now)) {t : K}
    (ht : ∀ c ∈ calls, c.now ≤ t) :
    getCurrentCount ((answerFrom settings limits calls).1.store resource deviceId) t =
      getCurrentCount (limits.store resource deviceId) t +
        total (inBuckets deviceId resource t) (answerFrom settings limits calls).2 := by
  induction calls using List.reverseRecOn with
  | nil => simp [answerFrom, total]
  | append_singleton calls c ih =>
    have hbefore := ih (List.pairwise_append.mp hsorted).1
      (fun d hd ↦ ht d (List.mem_append_left _ hd))
    have hc : c.now ≤ t := ht c (List.mem_append_right _ (List.mem_singleton.mpr rfl))
    rw [answerFrom_concat, answerCall]
    dsimp only
    rw [store_checkRateLimit settings _ hr, total_append, total_singleton, ← add_assoc, ← hbefore]
    by_cases hmine : c.resource = resource ∧ c.deviceId = deviceId
    · rw [if_pos hmine, getCurrentCount_increment, getCurrentCount_prune _ hc]
      simp [inBuckets, hmine.1, hmine.2]
    · rw [if_neg hmine]
      have hout : inBuckets deviceId resource t
          { toCall := c, answer := (checkRateLimit settings (answerFrom settings limits calls).1
            c.deviceId c.resource c.count c.now).2 } = false := by
        rw [inBuckets, decide_eq_false_iff_not]
        rintro ⟨h₁, h₂, _⟩
        exact hmine ⟨h₁, h₂⟩
      rw [hout]
      simp

/-- In a new process only the calls are counted. -/
theorem getCurrentCount_answerCalls (hr : Limited resource) {calls : List (Call K)}
    (hsorted : calls.Pairwise (fun a b ↦ a.now ≤ b.now)) {t : K} (ht : ∀ c ∈ calls, c.now ≤ t) :
    getCurrentCount ((answerCalls settings calls).1.store resource deviceId) t =
      total (inBuckets deviceId resource t) (answerCalls settings calls).2 := by
  have hcount := getCurrentCount_answerFrom settings deviceId .empty hr hsorted ht
  rw [store_empty, show getCurrentCount ([] : Buckets K) t = 0 from rfl, zero_add] at hcount
  exact hcount

/-- A bucket starts less than a minute before its calls. -/
theorem sub_lt_currentBucketTs (now : K) : now - bucketSeconds < currentBucketTs now := by
  have htrunc : now / bucketSeconds - 1 < pyInt (now / bucketSeconds) := by
    unfold pyInt
    split
    · exact Int.sub_one_lt_floor _
    · exact (sub_one_lt _).trans_le (Int.le_ceil _)
  have hb : ((bucketSeconds : Int) : K) = 60 := by norm_num [bucketSeconds]
  rw [hb] at htrunc
  unfold currentBucketTs
  rw [Int.cast_mul, hb]
  linarith

/-- When a call is admitted, all the counted ones in its window are within the limit. -/
theorem total_inBuckets_le_of_admitted {calls : List (Call K)} {c : Call K}
    (hsorted : (calls ++ [c]).Pairwise (fun a b ↦ a.now ≤ b.now)) (hr : Limited c.resource)
    (hadmitted : (checkRateLimit settings (answerCalls settings calls).1 c.deviceId c.resource
      c.count c.now).2.isOk = true) :
    total (inBuckets c.deviceId c.resource c.now) (answerCalls settings (calls ++ [c])).2 ≤
      limitOf settings c.resource := by
  have hlast : ∀ d ∈ calls ++ [c], d.now ≤ c.now := by
    intro d hd
    rcases List.mem_append.mp hd with hd | hd
    · exact (List.pairwise_append.mp hsorted).2.2 d hd c (List.mem_singleton.mpr rfl)
    · rw [List.mem_singleton.mp hd]
  rw [← getCurrentCount_answerCalls settings c.deviceId hr hsorted hlast, answerCalls_concat,
    answerCall]
  exact getCurrentCount_of_admitted settings (answerCalls settings calls).1 c hr hadmitted

/-- The last admitted call had all the counted ones in its own window. -/
theorem total_admittedInBuckets_le {calls : List (Call K)}
    (hsorted : calls.Pairwise (fun a b ↦ a.now ≤ b.now)) (hcount : ∀ c ∈ calls, 1 ≤ c.count)
    (hr : Limited resource) (T : K) :
    total (admittedInBuckets deviceId resource T) (answerCalls settings calls).2 ≤
      max (limitOf settings resource) 0 := by
  induction calls using List.reverseRecOn with
  | nil => exact le_max_right _ _
  | append_singleton calls c ih =>
    have hbefore := ih (List.pairwise_append.mp hsorted).1
      (fun d hd ↦ hcount d (List.mem_append_left _ hd))
    have hmono := fun q ↦ total_mono (p := admittedInBuckets deviceId resource T) (q := q)
      (count_nonneg_of_answered settings hcount)
    have hwindow := total_inBuckets_le_of_admitted settings hsorted
    rw [answerCalls_concat, answerCall] at hwindow hmono ⊢
    dsimp only at hwindow hmono ⊢
    set last : Answered K := { toCall := c, answer := (checkRateLimit settings
      (answerCalls settings calls).1 c.deviceId c.resource c.count c.now).2 } with hdef
    cases hp : admittedInBuckets deviceId resource T last with
    | false =>
      rw [total_append, total_singleton, hp]
      simpa using hbefore
    | true =>
      -- the window of this call reaches back further than the one before `T`
      rw [admittedInBuckets, decide_eq_true_eq] at hp
      obtain ⟨hadm, hin, hT⟩ := hp
      rw [inBuckets, decide_eq_true_eq] at hin
      obtain ⟨hres, hdev, _⟩ := hin
      change c.resource = resource at hres
      change c.deviceId = deviceId at hdev
      subst hres hdev
      refine (hmono (inBuckets c.deviceId c.resource c.now) ?_).trans
        ((hwindow hr hadm).trans (le_max_left _ _))
      intro a _ ha
      rw [admittedInBuckets, decide_eq_true_eq, inBuckets, decide_eq_true_eq] at ha
      obtain ⟨_, ⟨h₁, h₂, h₃⟩, _⟩ := ha
      rw [inBuckets, decide_eq_true_eq]
      exact ⟨h₁, h₂, (sub_le_sub_right hT _).trans h₃⟩

/-- For every time the admitted calls whose minute bucket starts in the hour before it are
within the limit; so are, then, the calls admitted in any 59 minutes. -/
theorem admitted_le_limit (calls : List (Call K))
    (hsorted : calls.Pairwise (fun a b ↦ a.now ≤ b.now)) (hcount : ∀ c ∈ calls, 1 ≤ c.count)
    (deviceId resource : String) (hr : Limited resource) (T : K) :
    total (admittedInBuckets deviceId resource T) (answerCalls settings calls).2 ≤
        max (limitOf settings resource) 0 ∧
      total (admittedWithin deviceId resource 3540 T) (answerCalls settings calls).2 ≤
        max (limitOf settings resource) 0 := by
  have hbuckets := total_admittedInBuckets_le settings deviceId hsorted hcount hr T
  refine ⟨hbuckets, (total_mono (count_nonneg_of_answered settings hcount) ?_).trans hbuckets⟩
  intro a _ ha
  rw [admittedWithin, decide_eq_true_eq] at ha
  obtain ⟨hadm, hres, hdev, hfrom, hto⟩ := ha
  have hstart : T - windowSeconds ≤ currentBucketTs a.now := by
    have hb := sub_lt_currentBucketTs a.now
    norm_num [bucketSeconds, windowSeconds] at hb ⊢
    linarith
  rw [admittedInBuckets, decide_eq_true_eq, inBuckets, decide_eq_true_eq]
  exact ⟨hadm, ⟨hres, hdev, hstart⟩, hto⟩

end Run

/-- 100 events in the last second of a minute, and 100 more 59 minutes and two seconds later. -/
def edgeCalls : List (Call ℚ) :=
  [⟨"device", "events", 100, 1767225659⟩, ⟨"device", "events", 100, 1767229201⟩]

/-- On the edge calls the buckets keep the limit. -/
theorem admitted_le_limit_edgeCalls :
    (edgeCalls.Pairwise (fun a b ↦ a.now ≤ b.now) ∧ (∀ c ∈ edgeCalls, 1 ≤ c.count) ∧
      Limited "events") ∧
    total (admittedInBuckets "device" "events" 1767229201)
        (answerCalls (Settings.default ℚ) edgeCalls).2 ≤
        max (limitOf (Settings.default ℚ) "events") 0 ∧
      total (admittedWithin "device" "events" 3540 1767229201)
        (answerCalls (Settings.default ℚ) edgeCalls).2 ≤
        max (limitOf (Settings.default ℚ) "events") 0 :=
  ⟨⟨by decide +kernel, by decide, .inl rfl⟩,
    admitted_le_limit (Settings.default ℚ) edgeCalls (by decide +kernel) (by decide) "device"
      "events" (.inl rfl) 1767229201⟩

/-! ### Hours -/

section Hours

/-- The stores of a process and the calls that it has answered. -/
abbrev Limiter (K : Type) := RateLimits K × List (Answered K)

/-- The next call. -/
def nextCall (settings : Settings K) (s : Limiter K) (c : Call K) : Option (Limiter K) :=
  some (answerCall settings s c)

/-- The clock does not go back, and the call counts something. -/
def InTurn (s : Limiter K) (c : Call K) : Prop := (∀ a ∈ s.2, a.now ≤ c.now) ∧ 1 ≤ c.count

/-- Every call of the device that was admitted in the hour before is still counted: the bucket that
it is in has not started before the hour. -/
def CountsHour (s : Limiter K) (c : Call K) : Prop :=
  ∀ a ∈ s.2, a.admitted = true ∧ a.resource = c.resource ∧ a.deviceId = c.deviceId ∧
    c.now - windowSeconds < a.now → c.now - windowSeconds ≤ currentBucketTs a.now

instance (s : Limiter K) (c : Call K) : Decidable (InTurn s c) :=
  inferInstanceAs (Decidable ((∀ a ∈ s.2, a.now ≤ c.now) ∧ 1 ≤ c.count))

instance (s : Limiter K) (c : Call K) : Decidable (CountsHour s c) :=
  inferInstanceAs (Decidable (∀ a ∈ s.2, a.admitted = true ∧ a.resource = c.resource ∧
    a.deviceId = c.deviceId ∧ c.now - windowSeconds < a.now →
      c.now - windowSeconds ≤ currentBucketTs a.now))

variable (settings : Settings K)

/-- The limiter has answered calls in their order, from its start. -/
def Answers (s : Limiter K) : Prop :=
  ∃ calls, s = answerCalls settings calls ∧ calls.Pairwise (fun a b ↦ a.now ≤ b.now) ∧
    ∀ c ∈ calls, 1 ≤ c.count

theorem answers_start : Answers settings (.empty, []) :=
  ⟨[], rfl, List.Pairwise.nil, by simp⟩

variable {settings} {s : Limiter K} {c : Call K}

/-- A call in its turn comes after all the others. -/
theorem sorted_concat {calls : List (Call K)} (hsorted : calls.Pairwise (fun a b ↦ a.now ≤ b.now))
    (hc : InTurn (answerCalls settings calls) c) :
    (calls ++ [c]).Pairwise (fun a b ↦ a.now ≤ b.now) := by
  rw [List.pairwise_append]
  refine ⟨hsorted, List.pairwise_singleton _ _, ?_⟩
  intro a ha b hb
  rw [List.mem_singleton.mp hb]
  rw [← toCall_answerFrom settings .empty calls] at ha
  obtain ⟨a', ha', rfl⟩ := List.mem_map.mp ha
  exact hc.1 a' ha'

theorem Answers.next (h : Answers settings s) (hc : InTurn s c) :
    Answers settings (answerCall settings s c) := by
  obtain ⟨calls, rfl, hsorted, hcount⟩ := h
  refine ⟨calls ++ [c], (answerCalls_concat settings calls c).symm, sorted_concat hsorted hc, ?_⟩
  intro d hd
  rcases List.mem_append.mp hd with hd | hd
  · exact hcount d hd
  · rw [List.mem_singleton.mp hd]
    exact hc.2

variable [IsStrictOrderedRing K]

/-- A call that comes while the hour before it is counted keeps the limit of every hour. -/
theorem admittedWithin_next {deviceId resource : String} (hr : Limited resource)
    (h : Answers settings s) (hc : InTurn s c) (hcounts : CountsHour s c)
    (hs : ∀ T, total (admittedWithin deviceId resource 3600 T) s.2 ≤ limitOf settings resource)
    (T : K) : total (admittedWithin deviceId resource 3600 T) (answerCall settings s c).2 ≤
      limitOf settings resource := by
  have hcount : ∀ a ∈ (answerCall settings s c).2, 0 ≤ a.count := by
    obtain ⟨calls, hcalls, -, hcount⟩ := h.next hc
    rw [hcalls]
    exact count_nonneg_of_answered settings hcount
  obtain ⟨calls, rfl, hsorted, -⟩ := h
  have hwindow := total_inBuckets_le_of_admitted settings (sorted_concat hsorted hc)
  rw [answerCalls_concat] at hwindow
  set last : Answered K := { toCall := c, answer := (checkRateLimit settings
    (answerCalls settings calls).1 c.deviceId c.resource c.count c.now).2 } with hdef
  have hanswers : (answerCall settings (answerCalls settings calls) c).2 =
      (answerCalls settings calls).2 ++ [last] := rfl
  cases hp : admittedWithin deviceId resource 3600 T last with
  | false =>
    rw [hanswers, total_append, total_singleton, hp]
    simpa using hs T
  | true =>
    rw [admittedWithin, decide_eq_true_eq] at hp
    obtain ⟨hadm, hres, hdev, hfrom, hto⟩ := hp
    change c.resource = resource at hres
    change c.deviceId = deviceId at hdev
    change c.now ≤ T at hto
    subst hres hdev
    have hhour : ((windowSeconds : Int) : K) = 3600 := by norm_num [windowSeconds]
    refine (total_mono hcount ?_).trans (hwindow hr hadm)
    intro a ha hwithin
    rw [admittedWithin, decide_eq_true_eq] at hwithin
    obtain ⟨hadm', hres', hdev', hfrom', -⟩ := hwithin
    rw [inBuckets, decide_eq_true_eq]
    refine ⟨hres', hdev', ?_⟩
    rw [hanswers] at ha
    rcases List.mem_append.mp ha with hold | hlast
    · -- the hour before this call reaches back further than the one before `T`
      refine hcounts a hold ⟨hadm', hres', hdev', ?_⟩
      rw [hhour]
      linarith
    · rw [List.mem_singleton.mp hlast, hhour]
      have hstart := sub_lt_currentBucketTs c.now
      norm_num [bucketSeconds] at hstart
      show c.now - 3600 ≤ currentBucketTs c.now
      linarith

end Hours

/-- The limit is used up at the start of a minute and again after an hour; between them a call is
refused. -/
def hourlyCalls : List (Call ℚ) :=
  [⟨"device", "events", 60, 1767225600⟩, ⟨"device", "events", 40, 1767225601⟩,
    ⟨"device", "events", 1, 1767229199⟩, ⟨"device", "events", 99, 1767229261⟩]

end PotholeServer.Ingest
