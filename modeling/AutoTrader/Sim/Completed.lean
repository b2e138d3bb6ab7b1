import AutoTrader.Sim.EvalWindow

/-!
# Completed bars of a timeframe

What has completed with a bar is known at that bar: `completed_first` compares the aggregation of all bars with
that of the bars up to one of them. The number of completed bars is the same, and so are these bars, which are
made of no later bar. It takes open times on the grid of five minutes.
-/

namespace AutoTrader.Sim

variable {tf : Tf}

theorem Tf.secs_pos (tf : Tf) : 0 < tf.secs := by
  rcases tf with _ | _ | _ | _ <;> decide

theorem Tf.m5Secs_le_secs (tf : Tf) : m5Secs ≤ tf.secs := by
  rcases tf with _ | _ | _ | _ <;> decide

/-- The open times are on the grid of five minutes. -/
def OnGrid (bars : List Bar) : Prop := ∀ b ∈ bars, m5Secs ∣ b.openTime

/-! ## The pointer walk -/

theorem advance_eq (barOpenTime : Int) (ends : List Int) :
    advance barOpenTime ends = Lib.partitionPoint (bucketEndTimeHasArrived · barOpenTime) ends := by
  unfold Lib.partitionPoint
  induction ends with
  | nil => rfl
  | cons e ends ih =>
    rw [advance]
    rcases he : bucketEndTimeHasArrived e barOpenTime with _ | _
    · rw [List.takeWhile_cons_of_neg (by simp [he]), if_neg (by decide), List.length_nil]
    · have hcons : (e :: ends).takeWhile (bucketEndTimeHasArrived · barOpenTime) =
          e :: ends.takeWhile (bucketEndTimeHasArrived · barOpenTime) := List.takeWhile_cons_of_pos he
      rw [hcons, if_pos rfl, ih, List.length_cons]

theorem arrived_mono {e x y : Int} (hxy : x ≤ y) (h : bucketEndTimeHasArrived e x = true) :
    bucketEndTimeHasArrived e y = true := by
  rw [bucketEndTimeHasArrived, decide_eq_true_eq] at h ⊢
  omega

theorem completedFrom_eq {ends : List Int} {ptr : Nat} {bars : List Bar} (hs : Ascending bars)
    (hptr : ptr ≤ ends.length)
    (hpast : ∀ b ∈ bars, ∀ e ∈ ends.take ptr, bucketEndTimeHasArrived e b.openTime = true) :
    completedFrom ends ptr bars =
      bars.map fun b => Lib.partitionPoint (bucketEndTimeHasArrived · b.openTime) ends := by
  induction bars generalizing ptr with
  | nil => rfl
  | cons b bars ih =>
    obtain ⟨hlater, htail⟩ := List.pairwise_cons.mp hs
    have hpoint := Lib.partitionPoint_drop hptr (hpast b List.mem_cons_self)
    rw [completedFrom, advance_eq, ← hpoint, List.map_cons]
    congr 1
    refine ih htail (Lib.partitionPoint_le _ ends) fun x hx e he => ?_
    have harrived : bucketEndTimeHasArrived e b.openTime = true := by
      rw [Lib.partitionPoint, ← List.prefix_iff_eq_take.mp (List.takeWhile_prefix _)] at he
      exact @List.mem_takeWhile_imp _ (bucketEndTimeHasArrived · b.openTime) _ _ he
    exact arrived_mono (Int.le_of_lt (hlater x hx)) harrived

/-- How many bars have completed with each bar. -/
theorem completedCounts_eq {ends : List Int} {bars : List Bar} (hs : Ascending bars) :
    completedCounts bars ends =
      bars.map fun b => Lib.partitionPoint (bucketEndTimeHasArrived · b.openTime) ends :=
  completedFrom_eq hs (Nat.zero_le _) (by simp)

/-! ## Buckets -/

/-- The bucket of a first bar and further ones. -/
def Bucket.of (tf : Tf) (b : Bar) (rest : List Bar) : Bucket := rest.foldl Bucket.add (.first tf b)

theorem Bucket.bucket_of (b : Bar) (rest : List Bar) : (Bucket.of tf b rest).bucket = bucketOf tf b := by
  unfold Bucket.of
  induction rest using List.reverseRecOn with
  | nil => rfl
  | append_singleton rest x ih =>
    rw [List.foldl_concat]
    exact ih

theorem Bucket.of_concat (b : Bar) (rest : List Bar) (x : Bar) :
    Bucket.of tf b (rest ++ [x]) = (Bucket.of tf b rest).add x := by
  rw [Bucket.of, List.foldl_concat, Bucket.of]

/-- The buckets of the bars up to one are those of more bars, but for the last. -/
theorem bucketsFrom_append (c : Bucket) (bars : List Bar) :
    ∃ done last, bucketsFrom tf c bars = done ++ [last] ∧
      ∀ later, bucketsFrom tf c (bars ++ later) = done ++ bucketsFrom tf last later := by
  induction bars generalizing c with
  | nil => exact ⟨[], c, rfl, fun _ => rfl⟩
  | cons b bars ih =>
    by_cases hb : bucketOf tf b = c.bucket
    · obtain ⟨done, last, hbars, hlater⟩ := ih (c.add b)
      refine ⟨done, last, ?_, fun later => ?_⟩
      · rw [bucketsFrom, if_pos hb, hbars]
      · rw [List.cons_append, bucketsFrom, if_pos hb, hlater]
    · obtain ⟨done, last, hbars, hlater⟩ := ih (.first tf b)
      refine ⟨c :: done, last, ?_, fun later => ?_⟩
      · rw [bucketsFrom, if_neg hb, hbars, List.cons_append]
      · rw [List.cons_append, bucketsFrom, if_neg hb, hlater, List.cons_append]

/-- Buckets in their order, with what they are made of. -/
def InOrder (tf : Tf) (bars : List Bar) : Prop := bars.Pairwise fun a b => bucketOf tf a ≤ bucketOf tf b

theorem Ascending.inOrder {bars : List Bar} (hs : Ascending bars) (tf : Tf) : InOrder tf bars :=
  hs.imp fun hab => Int.ediv_le_ediv tf.secs_pos (Int.le_of_lt hab)

/-- The bars that fall into a bucket. -/
def barsIn (tf : Tf) (bucket : Int) (bars : List Bar) : List Bar := bars.filter fun x => bucketOf tf x = bucket

theorem barsIn_append (bucket : Int) (bars later : List Bar) :
    barsIn tf bucket (bars ++ later) = barsIn tf bucket bars ++ barsIn tf bucket later := List.filter_append ..

theorem barsIn_eq_self {bucket : Int} {bars : List Bar} (h : ∀ x ∈ bars, bucketOf tf x = bucket) :
    barsIn tf bucket bars = bars := by
  rw [barsIn, List.filter_eq_self]
  exact fun x hx => decide_eq_true (h x hx)

theorem barsIn_eq_nil {bucket : Int} {bars : List Bar} (h : ∀ x ∈ bars, bucketOf tf x ≠ bucket) :
    barsIn tf bucket bars = [] := by
  rw [barsIn, List.filter_eq_nil_iff]
  exact fun x hx heq => h x hx (of_decide_eq_true heq)

theorem mem_barsIn {bucket : Int} {bars : List Bar} {x : Bar} :
    x ∈ barsIn tf bucket bars ↔ x ∈ bars ∧ bucketOf tf x = bucket := by
  rw [barsIn, List.mem_filter, decide_eq_true_eq]

/-- A bucket is made of the bars that fall into it. -/
def MadeOf (tf : Tf) (bars : List Bar) (u : Bucket) : Prop :=
  ∃ b rest, u = .of tf b rest ∧ barsIn tf u.bucket bars = b :: rest

theorem MadeOf.exists_mem {bars : List Bar} {u : Bucket} (h : MadeOf tf bars u) :
    ∃ b ∈ bars, bucketOf tf b = u.bucket := by
  obtain ⟨b, rest, -, hbars⟩ := h
  have hb : b ∈ barsIn tf u.bucket bars := by
    rw [hbars]
    exact List.mem_cons_self
  exact ⟨b, mem_barsIn.mp hb⟩

theorem madeOf_bucketsFrom {b : Bar} {rest bars : List Bar} {u : Bucket}
    (hgroup : ∀ x ∈ b :: rest, bucketOf tf x = bucketOf tf b) (hs : InOrder tf (b :: rest ++ bars))
    (hu : u ∈ bucketsFrom tf (.of tf b rest) bars) : MadeOf tf (b :: rest ++ bars) u := by
  induction bars generalizing b rest with
  | nil =>
    rw [bucketsFrom, List.mem_singleton] at hu
    refine ⟨b, rest, hu, ?_⟩
    rw [List.append_nil, hu, Bucket.bucket_of]
    exact barsIn_eq_self hgroup
  | cons x bars ih =>
    obtain ⟨-, htail, hbetween⟩ := List.pairwise_append.mp hs
    rw [bucketsFrom, Bucket.bucket_of] at hu
    by_cases hx : bucketOf tf x = bucketOf tf b
    · rw [if_pos hx, ← Bucket.of_concat] at hu
      have hgroup' : ∀ y ∈ b :: (rest ++ [x]), bucketOf tf y = bucketOf tf b := by
        intro y hy
        rw [← List.cons_append] at hy
        rcases List.mem_append.mp hy with hy | hy
        · exact hgroup y hy
        · rw [List.mem_singleton.mp hy, hx]
      have hassoc : b :: (rest ++ [x]) ++ bars = b :: rest ++ x :: bars := by simp
      rw [← hassoc] at hs ⊢
      exact ih hgroup' hs hu
    · have hlt : ∀ y ∈ x :: bars, bucketOf tf b < bucketOf tf y := by
        have hxb : bucketOf tf b < bucketOf tf x :=
          lt_of_le_of_ne (hbetween b List.mem_cons_self x List.mem_cons_self) (Ne.symm hx)
        intro y hy
        rcases List.mem_cons.mp hy with rfl | hy
        · exact hxb
        · exact lt_of_lt_of_le hxb ((List.pairwise_cons.mp htail).1 y hy)
      rw [if_neg hx] at hu
      rcases List.mem_cons.mp hu with hu | hu
      · -- the group is closed, and later bars are in later buckets
        refine ⟨b, rest, hu, ?_⟩
        rw [hu, Bucket.bucket_of, barsIn_append, barsIn_eq_self hgroup, barsIn_eq_nil fun y hy => (hlt y hy).ne',
          List.append_nil]
      · have hsingle : ∀ y ∈ [x], bucketOf tf y = bucketOf tf x := by simp
        have hmade : MadeOf tf (x :: bars) u := ih hsingle htail hu
        obtain ⟨y, hy, hbucket⟩ := hmade.exists_mem
        obtain ⟨b', rest', hof, hbars⟩ := hmade
        have hnone : barsIn tf u.bucket (b :: rest) = [] := by
          refine barsIn_eq_nil fun z hz => ?_
          have hlty := hlt y hy
          rw [hgroup z hz]
          omega
        exact ⟨b', rest', hof, by rw [barsIn_append, hnone, List.nil_append, hbars]⟩

theorem madeOf_buckets {bars : List Bar} {u : Bucket} (hs : InOrder tf bars) (hu : u ∈ buckets tf bars) :
    MadeOf tf bars u := by
  rcases bars with _ | ⟨b, bars⟩
  · simp [buckets] at hu
  · have hgroup : ∀ x ∈ [b], bucketOf tf x = bucketOf tf b := by simp
    exact madeOf_bucketsFrom hgroup hs hu

theorem head_bucketsFrom {c v : Bucket} {bars : List Bar} (hv : v ∈ (bucketsFrom tf c bars).head?) :
    v.bucket = c.bucket := by
  induction bars generalizing c with
  | nil =>
    obtain rfl : c = v := by simpa [bucketsFrom] using hv
    rfl
  | cons x bars ih =>
    rw [bucketsFrom] at hv
    by_cases hx : bucketOf tf x = c.bucket
    · rw [if_pos hx] at hv
      exact ih (c := c.add x) hv
    · rw [if_neg hx, List.head?_cons, Option.mem_def] at hv
      rw [Option.some.inj hv]

theorem le_of_mem_bucketsFrom {c u : Bucket} {bars : List Bar} (hc : ∀ x ∈ bars, c.bucket ≤ bucketOf tf x)
    (hs : InOrder tf bars) (hu : u ∈ bucketsFrom tf c bars) : c.bucket ≤ u.bucket := by
  induction bars generalizing c with
  | nil =>
    rw [bucketsFrom, List.mem_singleton] at hu
    rw [hu]
  | cons x bars ih =>
    obtain ⟨hfirst, htail⟩ := List.pairwise_cons.mp hs
    rw [bucketsFrom] at hu
    by_cases hx : bucketOf tf x = c.bucket
    · rw [if_pos hx] at hu
      exact ih (c := c.add x) (fun y hy => hc y (List.mem_cons_of_mem _ hy)) htail hu
    · rw [if_neg hx] at hu
      rcases List.mem_cons.mp hu with rfl | hu
      · exact le_refl _
      · have hle : bucketOf tf x ≤ u.bucket := ih (c := .first tf x) hfirst htail hu
        exact le_trans (hc x List.mem_cons_self) hle

theorem bucketsFrom_pairwise {c : Bucket} {bars : List Bar} (hc : ∀ x ∈ bars, c.bucket ≤ bucketOf tf x)
    (hs : InOrder tf bars) : (bucketsFrom tf c bars).Pairwise fun u v => u.bucket < v.bucket := by
  induction bars generalizing c with
  | nil => exact List.pairwise_singleton _ _
  | cons x bars ih =>
    obtain ⟨hfirst, htail⟩ := List.pairwise_cons.mp hs
    rw [bucketsFrom]
    by_cases hx : bucketOf tf x = c.bucket
    · rw [if_pos hx]
      exact ih (c := c.add x) (fun y hy => hc y (List.mem_cons_of_mem _ hy)) htail
    · rw [if_neg hx, List.pairwise_cons]
      refine ⟨fun u hu => ?_, ih (c := .first tf x) hfirst htail⟩
      have hle : bucketOf tf x ≤ u.bucket := le_of_mem_bucketsFrom (c := .first tf x) hfirst htail hu
      have hcx := hc x List.mem_cons_self
      omega

theorem buckets_pairwise {bars : List Bar} (hs : InOrder tf bars) :
    (buckets tf bars).Pairwise fun u v => u.bucket < v.bucket := by
  rcases bars with _ | ⟨b, bars⟩
  · exact List.Pairwise.nil
  · obtain ⟨hfirst, htail⟩ := List.pairwise_cons.mp hs
    exact bucketsFrom_pairwise (c := .first tf b) hfirst htail

/-! ## The bars up to one -/

/-- The last bucket is that of the last bar, and the others stay as they are. -/
theorem buckets_concat (bars : List Bar) (b : Bar) :
    ∃ done last, buckets tf (bars ++ [b]) = done ++ [last] ∧ last.bucket = bucketOf tf b ∧
      ∀ later, buckets tf (bars ++ [b] ++ later) = done ++ bucketsFrom tf last later := by
  rcases bars with _ | ⟨a, bars⟩
  · exact ⟨[], .first tf b, rfl, rfl, fun _ => rfl⟩
  · obtain ⟨done, last, -, hlater⟩ := @bucketsFrom_append tf (.first tf a) bars
    by_cases hb : bucketOf tf b = last.bucket
    · refine ⟨done, last.add b, ?_, hb.symm, fun later => ?_⟩
      · show bucketsFrom tf (.first tf a) (bars ++ [b]) = done ++ [last.add b]
        rw [hlater, bucketsFrom, if_pos hb, bucketsFrom]
      · show bucketsFrom tf (.first tf a) (bars ++ [b] ++ later) = done ++ bucketsFrom tf (last.add b) later
        rw [List.append_assoc, hlater, List.singleton_append, bucketsFrom, if_pos hb]
    · refine ⟨done ++ [last], .first tf b, ?_, rfl, fun later => ?_⟩
      · show bucketsFrom tf (.first tf a) (bars ++ [b]) = done ++ [last] ++ [.first tf b]
        rw [hlater, bucketsFrom, if_neg hb, bucketsFrom, List.append_assoc, List.singleton_append]
      · show bucketsFrom tf (.first tf a) (bars ++ [b] ++ later) = done ++ [last] ++ bucketsFrom tf (.first tf b) later
        rw [List.append_assoc, hlater, List.singleton_append, bucketsFrom, if_neg hb, List.append_assoc,
          List.singleton_append]

/-- The number of bars that have ended with an M5 bar, of those of which the end times are given. -/
def arrivedCount (tf : Tf) (b : Bar) (us : List Bucket) : Nat :=
  Lib.partitionPoint (bucketEndTimeHasArrived · b.openTime) (us.map (Bucket.endTime tf))

theorem arrivedCount_append {b : Bar} {us vs : List Bucket} (hus : ∀ u ∈ us, u.endTime tf ≤ b.openTime + m5Secs)
    (hvs : ∀ v ∈ vs.head?, b.openTime + m5Secs < v.endTime tf) : arrivedCount tf b (us ++ vs) = us.length := by
  rw [arrivedCount, List.map_append, Lib.partitionPoint_append, List.length_map]
  · intro e he
    obtain ⟨u, hu, rfl⟩ := List.mem_map.mp he
    exact decide_eq_true (hus u hu)
  · intro e he
    rw [List.head?_map, Option.mem_def, Option.map_eq_some_iff] at he
    obtain ⟨v, hv, rfl⟩ := he
    exact decide_eq_false (not_le.mpr (hvs v hv))

theorem endTime_le_openTime {b : Bar} {u : Bucket} (hu : u.bucket < bucketOf tf b) : u.endTime tf ≤ b.openTime := by
  have hpos := tf.secs_pos
  have hle : bucketOf tf b * tf.secs ≤ b.openTime := Int.ediv_mul_le b.openTime (ne_of_gt hpos)
  have hmul : u.endTime tf ≤ bucketOf tf b * tf.secs :=
    Int.mul_le_mul_of_nonneg_right (by omega) (Int.le_of_lt hpos)
  exact le_trans hmul hle

/-- A bar that opens once a bucket has ended is in a later one. -/
theorem lt_bucketOf {x : Bar} {u : Bucket} (hu : u.endTime tf ≤ x.openTime) : u.bucket < bucketOf tf x :=
  Int.lt_of_add_one_le ((Int.le_ediv_iff_mul_le tf.secs_pos).mpr hu)

/-- The next bar opens five minutes later or after that. -/
theorem OnGrid.step {bars : List Bar} {b x : Bar} (hgrid : OnGrid bars) (hb : b ∈ bars) (hx : x ∈ bars)
    (hlt : b.openTime < x.openTime) : b.openTime + m5Secs ≤ x.openTime := by
  obtain ⟨m, hm⟩ := hgrid x hx
  obtain ⟨n, hn⟩ := hgrid b hb
  unfold m5Secs at hm hn ⊢
  omega

theorem bucketsFrom_of_ne {c : Bucket} : ∀ {bars : List Bar}, (∀ x ∈ bars, bucketOf tf x ≠ c.bucket) →
    bucketsFrom tf c bars = c :: buckets tf bars
  | [], _ => rfl
  | x :: bars, h => by rw [bucketsFrom, if_neg (h x List.mem_cons_self), buckets]

/-- A bar that opens in a later bucket leaves that bucket open for at least five minutes more. -/
theorem not_arrived {b : Bar} {u : Bucket} (hu : bucketOf tf b < u.bucket) :
    b.openTime + m5Secs < u.endTime tf := by
  have hpos := tf.secs_pos
  have hm5 := tf.m5Secs_le_secs
  have hlt := Int.lt_ediv_add_one_mul_self b.openTime hpos
  have hmul : (bucketOf tf b + 1 + 1) * tf.secs ≤ u.endTime tf :=
    Int.mul_le_mul_of_nonneg_right (by omega) (Int.le_of_lt hpos)
  rw [add_mul, one_mul] at hmul
  have hbucket : b.openTime < (bucketOf tf b + 1) * tf.secs := hlt
  omega

theorem completed_first {bars later : List Bar} {b : Bar} (hs : Ascending (bars ++ [b] ++ later))
    (hgrid : OnGrid (bars ++ [b] ++ later)) (tf : Tf) :
    ∃ c, arrivedCount tf b (buckets tf (bars ++ [b])) = c ∧
      arrivedCount tf b (buckets tf (bars ++ [b] ++ later)) = c ∧ c ≤ (buckets tf (bars ++ [b])).length ∧
      (buckets tf (bars ++ [b] ++ later)).take c = (buckets tf (bars ++ [b])).take c ∧
      ∀ u ∈ (buckets tf (bars ++ [b])).take c, ∀ x ∈ later, bucketOf tf x ≠ u.bucket := by
  obtain ⟨hbefore, hafter, hbetween⟩ := List.pairwise_append.mp hs
  have hb : b ∈ bars ++ [b] := List.mem_append_right _ (List.mem_singleton_self b)
  have hlater : ∀ x ∈ later, bucketOf tf b ≤ bucketOf tf x := fun x hx =>
    Int.ediv_le_ediv tf.secs_pos (Int.le_of_lt (hbetween b hb x hx))
  obtain ⟨done, last, hbuckets, hlast, hmore⟩ := @buckets_concat tf bars b
  have hpair : (done ++ [last]).Pairwise fun u v => u.bucket < v.bucket := by
    rw [← hbuckets]
    exact buckets_pairwise (Ascending.inOrder hbefore tf)
  have hdone : ∀ u ∈ done, u.bucket < bucketOf tf b := by
    intro u hu
    rw [← hlast]
    exact (List.pairwise_append.mp hpair).2.2 u hu last (List.mem_singleton_self last)
  have hdoneEnds : ∀ u ∈ done, u.endTime tf ≤ b.openTime + m5Secs := by
    intro u hu
    have hle := endTime_le_openTime (hdone u hu)
    have hm5 : (0 : Int) ≤ m5Secs := by decide
    omega
  rw [hbuckets, hmore]
  by_cases hend : last.endTime tf ≤ b.openTime + m5Secs
  · -- the bucket of the bar ends with it, so every later bar is in a later one
    have hstrict : ∀ x ∈ later, bucketOf tf b < bucketOf tf x := by
      intro x hx
      have hstep := hgrid.step (List.mem_append_left _ hb) (List.mem_append_right _ hx) (hbetween b hb x hx)
      rw [← hlast]
      exact lt_bucketOf (le_trans hend hstep)
    have hfrom : bucketsFrom tf last later = last :: buckets tf later :=
      bucketsFrom_of_ne fun x hx => by
        rw [hlast]
        exact (hstrict x hx).ne'
    have hcons : done ++ last :: buckets tf later = (done ++ [last]) ++ buckets tf later := by simp
    have hends : ∀ u ∈ done ++ [last], u.endTime tf ≤ b.openTime + m5Secs := by
      intro u hu
      rcases List.mem_append.mp hu with hu | hu
      · exact hdoneEnds u hu
      · rw [List.mem_singleton.mp hu]
        exact hend
    rw [hfrom, hcons]
    refine ⟨(done ++ [last]).length, ?_, ?_, le_refl _, ?_, fun u hu x hx => ?_⟩
    · have h : arrivedCount tf b (done ++ [last] ++ []) = _ := arrivedCount_append hends (by simp)
      rwa [List.append_nil] at h
    · refine arrivedCount_append hends fun v hv => ?_
      obtain ⟨x, hx, hbucket⟩ := (madeOf_buckets (Ascending.inOrder hafter tf) (List.mem_of_mem_head? hv)).exists_mem
      exact not_arrived (hbucket ▸ hstrict x hx)
    · rw [List.take_left, List.take_length]
    · rw [List.take_length] at hu
      have hxb := hstrict x hx
      rcases List.mem_append.mp hu with hu | hu
      · have hub := hdone u hu
        omega
      · rw [List.mem_singleton.mp hu, hlast]
        omega
  · -- the bucket of the bar is still open
    have hopen : ∀ v ∈ (bucketsFrom tf last later).head?, b.openTime + m5Secs < v.endTime tf := by
      intro v hv
      have hsame : v.endTime tf = last.endTime tf := by
        rw [Bucket.endTime, Bucket.endTime, head_bucketsFrom hv]
      omega
    refine ⟨done.length, ?_, ?_, ?_, ?_, fun u hu x hx => ?_⟩
    · refine arrivedCount_append hdoneEnds fun v hv => ?_
      obtain rfl : last = v := by simpa using hv
      omega
    · exact arrivedCount_append hdoneEnds hopen
    · rw [List.length_append]
      omega
    · rw [List.take_left, List.take_left]
    · rw [List.take_left] at hu
      have hub := hdone u hu
      have hxb := hlater x hx
      omega

end AutoTrader.Sim
