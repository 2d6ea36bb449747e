import Mathlib.Data.Int.Interval
import PotholeServer.Ingest.RateLimit

/-!
# The bucket list and the log of calls

The bucket list of `_prune_and_increment` forgets what is older than an hour and merges the calls
of a minute. What it counts at a call is nevertheless what the full log of calls counts, and the
list is always short: its times are increasing multiples of a minute within one hour and a minute.
-/

namespace PotholeServer.Ingest

variable {K : Type} [Field K] [LinearOrder K]

section Times

variable {b : Buckets K} {ts : K}

theorem times_prune (b : Buckets K) (now : K) :
    (prune b now).map Prod.fst = (b.map Prod.fst).filter (fun x ↦ now - windowSeconds ≤ x) := by
  rw [prune, List.filter_map]
  rfl

omit [Field K] in
/-- An increment leaves the earlier times and puts its own one last. -/
theorem times_increment (hincreasing : (b.map Prod.fst).Pairwise (· < ·))
    (hle : ∀ x ∈ b.map Prod.fst, x ≤ ts) (c : Int) :
    (increment b ts c).map Prod.fst = (b.map Prod.fst).filter (fun x ↦ x < ts) ++ [ts] := by
  unfold increment
  cases hlast : b.getLast? with
  | none =>
    obtain rfl : b = [] := List.getLast?_eq_none_iff.mp hlast
    rfl
  | some last =>
    obtain ⟨rest, rfl⟩ := List.getLast?_eq_some_iff.mp hlast
    rw [List.map_append, List.pairwise_append] at hincreasing
    have hbefore : ∀ x ∈ rest.map Prod.fst, x < last.1 :=
      fun x hx ↦ hincreasing.2.2 x hx last.1 (by simp)
    have hlastLe : last.1 ≤ ts := hle last.1 (by simp)
    have hrest : (rest.map Prod.fst).filter (fun x ↦ x < ts) = rest.map Prod.fst := by
      rw [List.filter_eq_self]
      intro x hx
      simpa using (hbefore x hx).trans_le hlastLe
    dsimp only
    split
    · next hts => simp [hts, hrest, List.filter_append]
    · next hts =>
      have hlt : last.1 < ts := lt_of_le_of_ne hlastLe hts
      simp [hlt, hrest, List.filter_append]

end Times

section Aligned

variable [FloorRing K]

/-- The times of a bucket list that a call at `t` leaves. -/
structure Aligned (t : K) (buckets : Buckets K) : Prop where
  increasing : (buckets.map Prod.fst).Pairwise (· < ·)
  multiple : ∀ ts ∈ buckets.map Prod.fst, ∃ n : Int, ts = ((n * bucketSeconds : Int) : K)
  within : ∀ ts ∈ buckets.map Prod.fst, t - windowSeconds ≤ ts ∧ ts ≤ currentBucketTs t

theorem pyInt_mono {x y : K} (hxy : x ≤ y) : pyInt x ≤ pyInt y := by
  unfold pyInt
  split
  case isTrue hx =>
    rw [if_pos (hx.trans hxy)]
    exact Int.floor_le_floor hxy
  case isFalse hx =>
    have hceil : ⌈x⌉ ≤ 0 := by
      rw [Int.ceil_le, Int.cast_zero]
      exact (not_le.mp hx).le
    split
    case isTrue hy => exact hceil.trans (Int.floor_nonneg.mpr hy)
    case isFalse => exact Int.ceil_le_ceil hxy

variable [IsStrictOrderedRing K]

theorem currentBucketTs_mono : Monotone (currentBucketTs : K → K) := by
  intro t t' h
  have hb : (0 : K) < ((bucketSeconds : Int) : K) := by norm_num [bucketSeconds]
  unfold currentBucketTs
  rw [Int.cast_le]
  exact Int.mul_le_mul_of_nonneg_right
    (pyInt_mono (div_le_div_of_nonneg_right h hb.le)) (by decide)

/-- A bucket starts less than a minute after its calls, even before the epoch. -/
theorem currentBucketTs_lt (now : K) : currentBucketTs now < now + bucketSeconds := by
  have htrunc : (pyInt (now / bucketSeconds) : K) < now / bucketSeconds + 1 := by
    unfold pyInt
    split
    · exact (Int.floor_le _).trans_lt (lt_add_one _)
    · exact Int.ceil_lt_add_one _
  have hb : ((bucketSeconds : Int) : K) = 60 := by norm_num [bucketSeconds]
  rw [hb] at htrunc
  unfold currentBucketTs
  rw [Int.cast_mul, hb]
  linarith

/-- From the epoch on, the bucket of a call is its minute. -/
theorem currentBucketTs_eq {t : K} (h : 0 ≤ t) : currentBucketTs t = (⌊t / 60⌋ : K) * 60 := by
  have hb : ((bucketSeconds : Int) : K) = 60 := by norm_num [bucketSeconds]
  have hdiv : 0 ≤ t / 60 := div_nonneg h (by norm_num)
  rw [currentBucketTs, Int.cast_mul, hb, pyInt, if_pos hdiv]

/-- A call keeps the list aligned. -/
theorem Aligned.increment {t t' : K} {b : Buckets K} (h : Aligned t b) (ht : t ≤ t') (c : Int) :
    Aligned t' (increment (prune b t') (currentBucketTs t') c) := by
  have hpruned : ∀ x ∈ (prune b t').map Prod.fst,
      x ∈ b.map Prod.fst ∧ t' - windowSeconds ≤ x := by
    intro x hx
    rw [times_prune] at hx
    simpa using List.mem_filter.mp hx
  have hincreasing : ((prune b t').map Prod.fst).Pairwise (· < ·) := by
    rw [times_prune]
    exact h.increasing.filter _
  have hle : ∀ x ∈ (prune b t').map Prod.fst, x ≤ currentBucketTs t' := fun x hx ↦
    (h.within x (hpruned x hx).1).2.trans (currentBucketTs_mono ht)
  have htimes := times_increment hincreasing hle c
  have hmem : ∀ x ∈ (Ingest.increment (prune b t') (currentBucketTs t') c).map Prod.fst,
      x ∈ (prune b t').map Prod.fst ∨ x = currentBucketTs t' := by
    intro x hx
    rw [htimes, List.mem_append, List.mem_singleton] at hx
    exact hx.imp_left List.mem_of_mem_filter
  constructor
  · rw [htimes, List.pairwise_append]
    refine ⟨hincreasing.filter _, List.pairwise_singleton _ _, ?_⟩
    intro x hx y hy
    rw [List.mem_singleton.mp hy]
    simpa using (List.mem_filter.mp hx).2
  · intro x hx
    rcases hmem x hx with hx | rfl
    · exact h.multiple x (hpruned x hx).1
    · exact ⟨_, rfl⟩
  · intro x hx
    rcases hmem x hx with hx | rfl
    · exact ⟨(hpruned x hx).2, hle x hx⟩
    · have hlow := sub_lt_currentBucketTs t'
      norm_num [bucketSeconds, windowSeconds] at hlow ⊢
      linarith

/-- There are 61 multiples of a minute within one hour and a minute. -/
theorem Aligned.length_le {t : K} {b : Buckets K} (h : Aligned t b) : b.length ≤ 61 := by
  have hb : ((bucketSeconds : Int) : K) = 60 := by norm_num [bucketSeconds]
  have hw : ((windowSeconds : Int) : K) = 3600 := by norm_num [windowSeconds]
  have hfloor : ∀ ts ∈ b.map Prod.fst, ts = (⌊ts / 60⌋ : K) * 60 := by
    intro ts hts
    obtain ⟨n, rfl⟩ := h.multiple ts hts
    rw [Int.cast_mul, hb, mul_div_assoc, div_self (by norm_num), mul_one, Int.floor_intCast]
  have hnodup : ((b.map Prod.fst).map (fun ts ↦ ⌊ts / 60⌋)).Nodup := by
    apply List.Nodup.map_on
    · intro x hx y hy hxy
      rw [hfloor x hx, hfloor y hy, hxy]
    · exact h.increasing.imp ne_of_lt
  have hsubset : ((b.map Prod.fst).map (fun ts ↦ ⌊ts / 60⌋)).toFinset ⊆
      Finset.Ico (⌈t / 60⌉ - 60) (⌈t / 60⌉ + 1) := by
    intro n hn
    obtain ⟨ts, hts, rfl⟩ := List.mem_map.mp (List.mem_toFinset.mp hn)
    have heq := hfloor ts hts
    obtain ⟨hlow, hhigh⟩ := h.within ts hts
    have hhigh := hhigh.trans_lt (currentBucketTs_lt t)
    rw [hb] at hhigh
    rw [hw] at hlow
    rw [Finset.mem_Ico]
    constructor
    · have hlow' : t / 60 ≤ ((⌊ts / 60⌋ + 60 : Int) : K) := by
        push_cast
        linarith
      have := Int.ceil_le.mpr hlow'
      omega
    · have hhigh' : (⌊ts / 60⌋ : K) < (⌈t / 60⌉ + 1 : Int) := by
        have hceil := Int.le_ceil (t / 60)
        push_cast
        linarith
      exact Int.cast_lt.mp hhigh'
  have hcard := Finset.card_le_card hsubset
  rw [List.toFinset_card_of_nodup hnodup, Int.card_Ico, List.length_map, List.length_map] at hcard
  omega

end Aligned

section Log

variable [FloorRing K]

/-- The calls of a log that the window of a call covers: by the same device, on the same resource,
in a bucket that starts in the hour before. -/
def covered (c : Call K) (log : List (Call K)) : List (Call K) :=
  log.filter (fun d ↦ d.resource = c.resource ∧ d.deviceId = c.deviceId ∧
    c.now - windowSeconds ≤ currentBucketTs d.now)

/-- The counts of the covered calls, this one and all before it. -/
def logTotal (calls : List (Call K)) (c : Call K) : Int :=
  ((covered c (calls ++ [c])).map Call.count).sum

/-- How a call is answered after others. -/
def answerAfter (settings : Settings K) (calls : List (Call K)) (c : Call K) :
    Except RateLimitExceeded Unit :=
  (checkRateLimit settings (answerCalls settings calls).1 c.deviceId c.resource c.count c.now).2

/-- The total that a call on a limited resource compares with the limit. -/
def comparedTotal (settings : Settings K) (calls : List (Call K)) (c : Call K) : Int :=
  (pruneAndIncrement ((answerCalls settings calls).1.store c.resource) c.deviceId c.count c.now).2

variable (settings : Settings K) {calls : List (Call K)} {c : Call K}

theorem answerAfter_eq (calls : List (Call K)) (hr : Limited c.resource) :
    answerAfter settings calls c =
      enforce c.deviceId c.resource (limitOf settings c.resource)
        (comparedTotal settings calls c) := by
  unfold answerAfter comparedTotal checkRateLimit limitOf RateLimits.store
  rcases hr with hr | hr <;> simp [hr]

variable [IsStrictOrderedRing K]

/-- The bucket of a call is in its own window. -/
theorem window_currentBucketTs (now : K) : now - windowSeconds ≤ currentBucketTs now := by
  have hlow := sub_lt_currentBucketTs now
  norm_num [bucketSeconds, windowSeconds] at hlow ⊢
  linarith

/-- The buckets count what the log counts. -/
theorem comparedTotal_eq (hr : Limited c.resource)
    (hsorted : (calls ++ [c]).Pairwise (fun a b ↦ a.now ≤ b.now)) :
    comparedTotal settings calls c = logTotal calls c := by
  have hlast : ∀ d ∈ calls, d.now ≤ c.now :=
    fun d hd ↦ (List.pairwise_append.mp hsorted).2.2 d hd c (List.mem_singleton.mpr rfl)
  have hlog : total (inBuckets c.deviceId c.resource c.now) (answerCalls settings calls).2 =
      ((covered c calls).map Call.count).sum := by
    conv_rhs => rw [← toCall_answerFrom settings .empty calls, covered, List.filter_map,
      List.map_map]
    rfl
  have hself : covered c [c] = [c] := by
    simp [covered, sub_le_iff_le_add.mp (window_currentBucketTs c.now)]
  have hsplit : covered c (calls ++ [c]) = covered c calls ++ covered c [c] :=
    List.filter_append ..
  dsimp only [comparedTotal, pruneAndIncrement]
  rw [getCurrentCount_increment, getCurrentCount_prune _ le_rfl, if_pos (window_currentBucketTs _),
    getCurrentCount_answerCalls settings c.deviceId hr (List.pairwise_append.mp hsorted).1 hlast,
    hlog, logTotal, hsplit, hself]
  simp

/-- After any calls the list of a device is aligned at one of them. -/
theorem aligned_answerCalls {resource : String} (hr : Limited resource) (deviceId : String)
    (hsorted : calls.Pairwise (fun a b ↦ a.now ≤ b.now)) :
    ∀ t, (∀ d ∈ calls, d.now ≤ t) →
      ∃ t₀ ≤ t, Aligned t₀ ((answerCalls settings calls).1.store resource deviceId) := by
  induction calls using List.reverseRecOn with
  | nil =>
    intro t _
    refine ⟨t, le_rfl, ?_⟩
    rw [answerCalls, List.foldl_nil, store_empty]
    exact ⟨List.Pairwise.nil, by simp, by simp⟩
  | append_singleton calls c ih =>
    intro t ht
    obtain ⟨hcalls, -, hlast⟩ := List.pairwise_append.mp hsorted
    have hc : c.now ≤ t := ht c (by simp)
    rw [answerCalls_concat, answerCall]
    dsimp only
    rw [store_checkRateLimit settings _ hr]
    split
    case isTrue =>
      obtain ⟨t₀, ht₀, haligned⟩ := ih hcalls c.now (fun d hd ↦ hlast d hd c (by simp))
      exact ⟨c.now, hc, haligned.increment ht₀ c.count⟩
    case isFalse => exact ih hcalls t (fun d hd ↦ ht d (List.mem_append_left _ hd))

/-- The calls of one device on one resource. -/
def sameList (c : Call K) (d : Call K) : Bool := d.resource = c.resource ∧ d.deviceId = c.deviceId

/-- The bucket list implements the log. The total that a call compares with the limit is that of
the log; calls of other devices or on the other resource do not change the answer; and every list
has increasing multiples of a minute, 61 at most. -/
theorem buckets_implement_log (hr : Limited c.resource)
    (hsorted : (calls ++ [c]).Pairwise (fun a b ↦ a.now ≤ b.now)) :
    comparedTotal settings calls c = logTotal calls c ∧
    answerAfter settings calls c =
      enforce c.deviceId c.resource (limitOf settings c.resource) (logTotal calls c) ∧
    answerAfter settings calls c = answerAfter settings (calls.filter (sameList c)) c ∧
    (∀ deviceId resource, Limited resource →
      let buckets := (answerCalls settings (calls ++ [c])).1.store resource deviceId
      (buckets.map Prod.fst).Pairwise (· < ·) ∧
      (∀ ts ∈ buckets.map Prod.fst, ∃ n : Int, ts = ((n * 60 : Int) : K)) ∧
      buckets.length ≤ 61) ∧
    ∀ d ∈ calls ++ [c], 0 ≤ d.now → currentBucketTs d.now = (⌊d.now / 60⌋ : K) * 60 := by
  have htotal := comparedTotal_eq settings hr hsorted
  refine ⟨htotal, ?_, ?_, ?_, fun _ _ h ↦ currentBucketTs_eq h⟩
  · rw [answerAfter_eq settings calls hr, htotal]
  · have hfiltered : (calls.filter (sameList c) ++ [c]).Pairwise (fun a b ↦ a.now ≤ b.now) :=
      hsorted.sublist (List.filter_sublist.append_right [c])
    have hcovered : covered c (calls.filter (sameList c) ++ [c]) = covered c (calls ++ [c]) := by
      unfold covered
      rw [List.filter_append, List.filter_append, List.filter_filter]
      congr 1
      apply List.filter_congr
      intro d _
      simp only [sameList, Bool.decide_and]
      cases decide (d.resource = c.resource) <;> cases decide (d.deviceId = c.deviceId) <;> simp
    rw [answerAfter_eq settings calls hr, answerAfter_eq settings _ hr, htotal,
      comparedTotal_eq settings hr hfiltered, logTotal, logTotal, hcovered]
  · intro deviceId resource hresource
    have hlast : ∀ d ∈ calls ++ [c], d.now ≤ c.now := by
      intro d hd
      rcases List.mem_append.mp hd with hd | hd
      · exact (List.pairwise_append.mp hsorted).2.2 d hd c (List.mem_singleton.mpr rfl)
      · rw [List.mem_singleton.mp hd]
    obtain ⟨t₀, -, haligned⟩ :=
      aligned_answerCalls settings hresource deviceId hsorted c.now hlast
    exact ⟨haligned.increasing, haligned.multiple, haligned.length_le⟩

/-- Two calls of a device in one minute and one of another device. -/
theorem buckets_implement_log_minute :
    let calls : List (Call ℚ) :=
      [⟨"device", "events", 60, 1767225601⟩, ⟨"other", "events", 99, 1767225602⟩]
    let c : Call ℚ := ⟨"device", "events", 40, 1767225603⟩
    comparedTotal (Settings.default ℚ) calls c = logTotal calls c ∧ logTotal calls c = 100 :=
  ⟨(buckets_implement_log (Settings.default ℚ) (.inl rfl) (by decide +kernel)).1,
    by decide +kernel⟩

end Log

end PotholeServer.Ingest
