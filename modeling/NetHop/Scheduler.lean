import NetHop.SortedMap

/-!
# The schedule of updates

A source is updated again after an interval, or after a failure with a delay that doubles with
every further one.  A jitter that the key determines is added to both, but a policy bounds it by
the interval only.  Times are `i64` seconds; what is added to them saturates.
-/

namespace NetHop.Scheduler

inductive SchedulerError where
  | invalidKey
  | invalidPolicy
  | invalidWallTime
  | clockRegressed
  | missingRecord
  | persistenceFailed
  deriving DecidableEq

def maxKeyBytes : Nat := 128

def maxFailures : Nat := 16

def i64Max : Int := 2 ^ 63 - 1

/-- The value of an `i64` operation that saturates. -/
def saturating (value : Int) : Int := max (-2 ^ 63) (min value i64Max)

/-- `ScheduleKey`, as `new` accepts it. -/
structure ScheduleKey where
  value : String
  valid : value ≠ "" ∧ value.utf8ByteSize ≤ maxKeyBytes ∧
    ∀ byte ∈ value.toUTF8.toList, 32 ≤ byte ∧ byte ≠ 127

structure SchedulePolicy where
  intervalSeconds : Int
  failureBackoffSeconds : Int
  maxBackoffSeconds : Int
  jitterSeconds : Int

namespace SchedulePolicy

def new (intervalSeconds failureBackoffSeconds maxBackoffSeconds jitterSeconds : Int) :
    Except SchedulerError SchedulePolicy := do
  ensure (0 < intervalSeconds ∧ 0 < failureBackoffSeconds ∧
    failureBackoffSeconds ≤ maxBackoffSeconds ∧ 0 ≤ jitterSeconds ∧
    jitterSeconds ≤ intervalSeconds / 2) .invalidPolicy
  return ⟨intervalSeconds, failureBackoffSeconds, maxBackoffSeconds, jitterSeconds⟩

end SchedulePolicy

@[ext] structure ScheduleRecord where
  key : String
  nextRunWallSeconds : Int
  failureCount : Nat
  lastObservedWallSeconds : Int

open ScheduleRecord SchedulePolicy SortedMap

def ScheduleRecord.fromPersisted (key : String) (nextRunWallSeconds : Int) (failureCount : Nat)
    (lastObservedWallSeconds : Int) : Except SchedulerError ScheduleRecord := do
  ensure (0 ≤ nextRunWallSeconds ∧ 0 ≤ lastObservedWallSeconds ∧ failureCount ≤ maxFailures)
    .persistenceFailed
  return ⟨key, nextRunWallSeconds, failureCount, lastObservedWallSeconds⟩

def stableJitter (key : String) (max : Int) : Int :=
  if max = 0 then
    0
  else
    let hash : UInt32 := key.toUTF8.toList.foldl
      (fun hash byte => (hash ^^^ byte.toUInt32) * 16777619) 2166136261
    let span := ((max * 2 + 1) % 2 ^ 32).toNat
    (hash.toNat % span : Nat) - max

structure SchedulerEngine where
  policy : SchedulePolicy
  records : SortedMap String ScheduleRecord

open SchedulerEngine

def ScheduleRecord.updated (policy : SchedulePolicy) (key : String) (now : Int) (failure : Bool)
    (record : ScheduleRecord) : ScheduleRecord :=
  let failureCount :=
    if failure then min (min (record.failureCount + 1) (2 ^ 32 - 1)) maxFailures else 0
  let base :=
    if failure then
      min (saturating (policy.failureBackoffSeconds * 2 ^ min (failureCount - 1) 6))
        policy.maxBackoffSeconds
    else
      policy.intervalSeconds
  let jitter := stableJitter key policy.jitterSeconds
  { record with
    lastObservedWallSeconds := now
    failureCount
    nextRunWallSeconds := saturating (saturating (now + base) + jitter) }

variable (self : SchedulerEngine) (saved : Except SchedulerError Unit)

/-- `update`, where `saved` is what the store answers. -/
def SchedulerEngine.update (key : ScheduleKey) (now : Int) (failure : Bool) :
    Except SchedulerError Unit × SchedulerEngine :=
  if now < 0 then
    (.error .invalidWallTime, self)
  else
    match self.records.get? key.value with
    | none => (.error .missingRecord, self)
    | some record =>
      if now < record.lastObservedWallSeconds then
        (.error .clockRegressed, self)
      else
        let record := record.updated self.policy key.value now failure
        (saved, { self with records := self.records.insert key.value record })

def SchedulerEngine.markSuccess (key : ScheduleKey) (now : Int) :
    Except SchedulerError Unit × SchedulerEngine :=
  self.update saved key now false

def SchedulerEngine.markFailure (key : ScheduleKey) (now : Int) :
    Except SchedulerError Unit × SchedulerEngine :=
  self.update saved key now true

/-! ## Moving forward -/

/-- The jitter takes back at most its bound. -/
theorem neg_le_stableJitter (key : String) (max : Int) : -max ≤ stableJitter key max := by
  unfold stableJitter
  split
  · omega
  · dsimp only
    omega

section

variable {policy : SchedulePolicy} {record : ScheduleRecord} {key : String} {now : Int}

theorem updated_success : record.updated policy key now false =
    ⟨record.key, saturating (saturating (now + policy.intervalSeconds) +
      stableJitter key policy.jitterSeconds), 0, now⟩ := rfl

theorem updated_failure : record.updated policy key now true =
    ⟨record.key, saturating (saturating (now +
        min (saturating (policy.failureBackoffSeconds * 2 ^ min record.failureCount 6))
          policy.maxBackoffSeconds) + stableJitter key policy.jitterSeconds),
      min (record.failureCount + 1) maxFailures, now⟩ := by
  have hcount : min (min (record.failureCount + 1) (2 ^ 32 - 1)) maxFailures =
      min (record.failureCount + 1) maxFailures := by unfold maxFailures; omega
  have hexponent : min (min (record.failureCount + 1) maxFailures - 1) 6 =
      min record.failureCount 6 := by unfold maxFailures; omega
  simp only [updated, if_true, hcount, hexponent]

end

/-- An update that the store accepts is one that gets as far as the store. -/
theorem exists_of_update {self : SchedulerEngine} {saved : Except SchedulerError Unit}
    {key : ScheduleKey} {now : Int} {failure : Bool}
    (h : (self.update saved key now failure).1 = .ok ()) :
    0 ≤ now ∧ ∃ record, self.records.get? key.value = some record ∧
      ∀ saved, self.update saved key now failure = (saved, { self with
        records := self.records.insert key.value
          (record.updated self.policy key.value now failure) }) := by
  unfold update at h ⊢
  split at h
  · cases h
  · next hwall =>
    split at h
    · cases h
    · next record hrecord =>
      split at h
      · cases h
      · next hclock =>
        refine ⟨Int.not_lt.mp hwall, record, hrecord, fun saved => ?_⟩
        rw [if_neg hwall]
        exact if_neg hclock

/-- The next run is later than now, and a restart loads the record as it is. -/
def Forward (now : Int) (record : ScheduleRecord) : Prop :=
  now < record.nextRunWallSeconds ∧
    fromPersisted record.key record.nextRunWallSeconds record.failureCount
      record.lastObservedWallSeconds = .ok record

theorem forward_iff {key : String} {now delay jitter : Int} {failureCount : Nat} (hwall : 0 ≤ now)
    (hnow : now ≤ i64Max) (hdelay : 0 < delay) (hcount : failureCount ≤ maxFailures) :
    Forward now ⟨key, saturating (saturating (now + delay) + jitter), failureCount, now⟩ ↔
      0 < delay + jitter ∧ now < i64Max + min jitter 0 := by
  simp only [Forward, fromPersisted, bind_eq_ok, ensure_eq_ok, decide_eq_true_eq]
  unfold saturating i64Max at *
  constructor
  · rintro ⟨hlater, -⟩
    omega
  · rintro ⟨hforward, hroom⟩
    refine ⟨by omega, (), ⟨by omega, by omega, hcount⟩, rfl⟩

/-- A success moves its record forward unless the time is at the end of its range: the jitter is at
most half of the interval.  A failure does so exactly when, besides, the jitter of the key does not
take back the delay. -/
theorem mark_forward_iff {self : SchedulerEngine} {interval backoff maxBackoff jitter : Int}
    {saved : Except SchedulerError Unit} {key : ScheduleKey} {now : Int}
    (hpolicy : SchedulePolicy.new interval backoff maxBackoff jitter = .ok self.policy)
    (hnow : now ≤ i64Max) :
    (∀ self', self.markSuccess saved key now = (.ok (), self') →
      ∃ record', self'.records.get? key.value = some record' ∧
        (Forward now record' ↔ now < i64Max + min (stableJitter key.value jitter) 0)) ∧
    ∀ self', self.markFailure saved key now = (.ok (), self') →
      ∃ record record', self.records.get? key.value = some record ∧
        self'.records.get? key.value = some record' ∧
        (Forward now record' ↔
          0 < min (saturating (backoff * 2 ^ min record.failureCount 6)) maxBackoff +
              stableJitter key.value jitter ∧
            now < i64Max + min (stableJitter key.value jitter) 0) := by
  simp only [new, bind_eq_ok, ensure_eq_ok, decide_eq_true_eq] at hpolicy
  obtain ⟨-, ⟨hpositive, hbackoff, hmax, -, hjitter⟩, hpolicy⟩ := hpolicy
  have hpolicy : self.policy = ⟨interval, backoff, maxBackoff, jitter⟩ :=
    (Except.ok.inj hpolicy).symm
  refine ⟨fun self' h => ?_, fun self' h => ?_⟩
  · obtain ⟨hwall, record, hrecord, hupdate⟩ := exists_of_update (congrArg Prod.fst h)
    have hself := congrArg Prod.snd (h.symm.trans (hupdate saved))
    subst hself
    refine ⟨_, by rw [get?_insert, if_pos rfl], ?_⟩
    have hrange := neg_le_stableJitter key.value jitter
    rw [hpolicy, updated_success, forward_iff hwall hnow hpositive (Nat.zero_le _)]
    exact and_iff_right (by dsimp only; omega)
  · obtain ⟨hwall, record, hrecord, hupdate⟩ := exists_of_update (congrArg Prod.fst h)
    have hself := congrArg Prod.snd (h.symm.trans (hupdate saved))
    subst hself
    refine ⟨record, _, hrecord, by rw [get?_insert, if_pos rfl], ?_⟩
    have hdelay : 0 < min (saturating (backoff * 2 ^ min record.failureCount 6)) maxBackoff := by
      have hgrown : 0 < backoff * 2 ^ min record.failureCount 6 :=
        Int.mul_pos hbackoff (Int.pow_pos (by decide))
      unfold saturating i64Max
      omega
    rw [hpolicy, updated_failure]
    exact forward_iff hwall hnow hdelay (Nat.min_le_right _ _)

/-- A source with one record, under the policy of an interval of a day. -/
def sampleEngine (backoff maxBackoff : Int) : SchedulerEngine where
  policy := ⟨86400, backoff, maxBackoff, 900⟩
  records := empty.insert "src_00000000000000000000000000000001"
    ⟨"src_00000000000000000000000000000001", 0, 0, 0⟩

def sampleKey : ScheduleKey := ⟨"src_00000000000000000000000000000001", by decide +kernel⟩

theorem sampleEngine_forward : let self := sampleEngine 3600 86400
    (∃ record', (self.markSuccess (.ok ()) sampleKey 1000).2.records.get? sampleKey.value =
      some record' ∧ Forward 1000 record') ∧
    ∃ record', (self.markFailure (.ok ()) sampleKey 1000).2.records.get? sampleKey.value =
      some record' ∧ Forward 1000 record' := by
  have hpolicy : SchedulePolicy.new 86400 3600 86400 900 = .ok (sampleEngine 3600 86400).policy :=
    rfl
  obtain ⟨hsuccess, hfailure⟩ := @mark_forward_iff _ _ _ _ _ (.ok ()) sampleKey 1000 hpolicy
    (by decide)
  obtain ⟨record', hrecord', hiff⟩ := hsuccess _ rfl
  obtain ⟨record, record'', hrecord, hrecord'', hiff'⟩ := hfailure _ rfl
  cases hrecord
  exact ⟨⟨record', hrecord', hiff.mpr (by decide +kernel)⟩, record'', hrecord'',
    hiff'.mpr (by decide +kernel)⟩

/-- The same jitter takes more than a minute back: the next run is before the failure. -/
theorem sampleEngine_backward :
    SchedulePolicy.new 86400 60 300 900 = .ok (sampleEngine 60 300).policy ∧
      ((sampleEngine 60 300).markFailure (.ok ()) sampleKey 1000).1 = .ok () ∧
      (((sampleEngine 60 300).markFailure (.ok ()) sampleKey 1000).2.records.get?
        sampleKey.value).map nextRunWallSeconds = some 809 := ⟨rfl, rfl, by decide +kernel⟩

/-! ## Errors -/

/-- The loop of `due` over the records in the order of their keys. -/
def dueLoop (now : Int) : List (String × ScheduleRecord) →
    Except SchedulerError (List String) × List (String × ScheduleRecord)
  | [] => (.ok [], [])
  | (key, record) :: rest =>
    if now < record.lastObservedWallSeconds then (.error .clockRegressed, (key, record) :: rest)
    else
      let (due, rest) := dueLoop now rest
      (due.map fun due => if record.nextRunWallSeconds ≤ now then record.key :: due else due,
        (key, { record with lastObservedWallSeconds := now }) :: rest)

theorem keys_dueLoop (now : Int) (l : List (String × ScheduleRecord)) :
    (dueLoop now l).2.map Prod.fst = l.map Prod.fst := by
  fun_induction dueLoop now l with
  | case1 => rfl
  | case2 => rfl
  | case3 key record rest hclock due rest' hloop ih =>
    rw [hloop] at ih
    exact congrArg (key :: ·) ih

def SchedulerEngine.due (now : Int) : Except SchedulerError (List String) × SchedulerEngine :=
  if now < 0 then
    (.error .invalidWallTime, self)
  else
    have hsorted : (dueLoop now self.records.entries).2.Pairwise fun a b => a.1 < b.1 := by
      rw [← List.pairwise_map (f := Prod.fst) (R := (· < ·)), keys_dueLoop, List.pairwise_map]
      exact self.records.sorted
    ((dueLoop now self.records.entries).1,
      { self with records := ⟨(dueLoop now self.records.entries).2, hsorted⟩ })

/-- The loop observes every record in front of the first one that is ahead of the clock. -/
theorem dueLoop_eq_self_iff (now : Int) (l : List (String × ScheduleRecord)) :
    (dueLoop now l).2 = l ↔ ∀ e ∈ l.takeWhile (·.2.lastObservedWallSeconds ≤ now),
      e.2.lastObservedWallSeconds = now := by
  fun_induction dueLoop now l with
  | case1 => simp
  | case2 key record rest hclock => simp [List.takeWhile, Int.not_le.mpr hclock]
  | case3 key record rest hclock due rest' hloop ih =>
    rw [hloop] at ih
    rw [List.takeWhile_cons, if_pos (decide_eq_true (Int.not_lt.mp hclock)), List.forall_mem_cons,
      ← ih, List.cons_eq_cons]
    simp [ScheduleRecord.ext_iff, eq_comm]

/-- The records are as before, and as the store has them. -/
def Atomic (held before after : SortedMap String ScheduleRecord) : Prop :=
  after = before ∧ after = held

variable {self} in
/-- Writing an updated record changes nothing where the record is the updated one. -/
theorem update_eq_self_iff {key : ScheduleKey} {now : Int} {failure : Bool}
    (h : (self.update (.ok ()) key now failure).1 = .ok ()) (e : SchedulerError) :
    (self.update (.error e) key now failure).2.records = self.records ↔
      ∃ record ∈ self.records.get? key.value,
        record.updated self.policy key.value now failure = record := by
  obtain ⟨-, record, hrecord, hupdate⟩ := exists_of_update h
  rw [hupdate, insert_eq_self_iff hrecord, hrecord]
  simp

/-- A failed call is atomic when memory and store agreed, and nothing was there for it to change:
`due` had observed the records in front of the one ahead of the clock at this very time, and the
record of an update was observed at this time, with no failure or with all that are counted, and
had the next run of a delay of this kind. -/
theorem failed_atomic_iff (held : SortedMap String ScheduleRecord) (now : Int) :
    ((self.due now).1 = .error .clockRegressed →
      (Atomic held self.records (self.due now).2.records ↔ self.records = held ∧
        ∀ e ∈ self.records.entries.takeWhile (·.2.lastObservedWallSeconds ≤ now),
          e.2.lastObservedWallSeconds = now)) ∧
    (∀ key e, (self.markSuccess (.ok ()) key now).1 = .ok () →
      (Atomic held self.records (self.markSuccess (.error e) key now).2.records ↔
        self.records = held ∧ ∃ record ∈ self.records.get? key.value,
          record.lastObservedWallSeconds = now ∧ record.failureCount = 0 ∧
          record.nextRunWallSeconds = saturating (saturating (now + self.policy.intervalSeconds) +
            stableJitter key.value self.policy.jitterSeconds))) ∧
    ∀ key e, (self.markFailure (.ok ()) key now).1 = .ok () →
      (Atomic held self.records (self.markFailure (.error e) key now).2.records ↔
        self.records = held ∧ ∃ record ∈ self.records.get? key.value,
          record.lastObservedWallSeconds = now ∧ record.failureCount = maxFailures ∧
          record.nextRunWallSeconds = saturating (saturating (now +
            min (saturating (self.policy.failureBackoffSeconds * 2 ^ 6))
              self.policy.maxBackoffSeconds) +
                stableJitter key.value self.policy.jitterSeconds)) := by
  have hatomic {after : SortedMap String ScheduleRecord} {P : Prop} (h : after = self.records ↔ P) :
      Atomic held self.records after ↔ self.records = held ∧ P := by
    rw [← h, Atomic]
    exact ⟨fun ⟨hsame, hheld⟩ => ⟨hsame ▸ hheld, hsame⟩,
      fun ⟨hheld, hsame⟩ => ⟨hsame, hsame ▸ hheld⟩⟩
  refine ⟨fun h => hatomic ?_, fun key e h => hatomic ?_, fun key e h => hatomic ?_⟩
  · unfold due at h ⊢
    split at h
    · cases h
    · next hwall =>
      rw [if_neg hwall, SortedMap.ext_iff]
      exact dueLoop_eq_self_iff now _
  · refine (update_eq_self_iff h e).trans (exists_congr fun record => and_congr_right fun _ => ?_)
    rw [updated_success, ScheduleRecord.ext_iff]
    constructor
    · rintro ⟨-, hnext, hcount, hlast⟩
      exact ⟨hlast.symm, hcount.symm, hnext.symm⟩
    · rintro ⟨hlast, hcount, hnext⟩
      exact ⟨rfl, hnext.symm, hcount.symm, hlast.symm⟩
  · refine (update_eq_self_iff h e).trans (exists_congr fun record => and_congr_right fun _ => ?_)
    rw [updated_failure, ScheduleRecord.ext_iff]
    constructor
    · rintro ⟨-, hnext, hcount, hlast⟩
      -- a count that one more failure leaves as it is has reached the maximum
      have hfull : record.failureCount = maxFailures := by
        dsimp only at hcount
        omega
      rw [hfull] at hnext
      exact ⟨hlast.symm, hfull, hnext.symm⟩
    · rintro ⟨hlast, hfull, hnext⟩
      rw [hfull, hnext]
      exact ⟨rfl, rfl, rfl, hlast.symm⟩

/-- The clock went back behind the second record; the first had been observed at this time, and
has all the failures that are counted. -/
theorem sampleEngine_regressed :
    let records := (empty.insert "b" ⟨"b", 1000, 0, 2000⟩).insert "a" ⟨"a", 87544, 16, 1000⟩
    let self := { sampleEngine 3600 86400 with records }
    (self.due 1000).1 = .error .clockRegressed ∧ Atomic records records (self.due 1000).2.records ∧
      Atomic records records (self.markFailure (.error .persistenceFailed)
        ⟨"a", by decide +kernel⟩ 1000).2.records := by
  intro records self
  obtain ⟨hdue, -, hfailure⟩ := failed_atomic_iff self records 1000
  exact ⟨by decide +kernel, (hdue (by decide +kernel)).mpr ⟨rfl, by decide +kernel⟩,
    (hfailure _ _ (by decide +kernel)).mpr ⟨rfl, _, rfl, by decide +kernel⟩⟩

/-- A failed save leaves a failure in memory that the store does not know. -/
theorem sampleEngine_unsaved : let self := sampleEngine 3600 86400
    (self.markFailure (.error .persistenceFailed) sampleKey 1000).1 = .error .persistenceFailed ∧
      ((self.markFailure (.error .persistenceFailed) sampleKey 1000).2.records.get?
        sampleKey.value).map failureCount = some 1 ∧
      (self.records.get? sampleKey.value).map failureCount = some 0 := by
  decide +kernel

end NetHop.Scheduler
