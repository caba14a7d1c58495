import Paymaster.Backend.Metrics
import Paymaster.Lib.Separator
import Paymaster.Lib.Tally

/-!
# What series hold

A counter has for each label set the sum of what came with it, and a gauge what
it was set to last, as long as no two of the label sets have the same key.
-/

namespace Paymaster.Metrics

/-! ## Series -/

/-- No two of the label sets have the same key. -/
def KeyFaithful (ls : List Labels) : Prop := ∀ l ∈ ls, ∀ l' ∈ ls, seriesKey l = seriesKey l' → l = l'

structure SeriesOf {α : Type} (value : Labels → α) (ls : List Labels) (series : SeriesMap α) : Prop where
  keyed : ∀ entry ∈ series, entry.1 = seriesKey entry.2.labels
  nodup : (series.map fun entry => entry.2.labels).Nodup
  mem : ∀ labels, labels ∈ series.map (fun entry => entry.2.labels) ↔ labels ∈ ls
  value : ∀ entry ∈ series, entry.2.value = value entry.2.labels

section
variable {α : Type} {value value' : Labels → α} {ls : List Labels} {l : Labels} {series : SeriesMap α}

theorem mem_labels (h : SeriesOf value ls series) {entry : Text × Series α} (hentry : entry ∈ series) : entry.2.labels ∈ ls :=
  (h.mem _).mp (List.mem_map_of_mem hentry)

theorem nodup_keys (h : SeriesOf value ls series) (hkeys : KeyFaithful ls) : (series.map Prod.fst).Nodup := by
  have hmap : series.map Prod.fst = (series.map fun entry => entry.2.labels).map seriesKey := by
    rw [List.map_map]
    exact List.map_congr_left h.keyed
  rw [hmap]
  apply h.nodup.map_on
  intro l hl l' hl'
  exact hkeys l ((h.mem l).mp hl) l' ((h.mem l').mp hl')

theorem get_of_mem_labels (h : SeriesOf value ls series) (hkeys : KeyFaithful ls) (hl : l ∈ ls) :
    Assoc.get series (seriesKey l) = some ⟨l, value l⟩ := by
  obtain ⟨entry, hentry, heq⟩ := List.mem_map.mp ((h.mem l).mpr hl)
  apply Assoc.get_of_mem (nodup_keys h hkeys)
  have hkey := h.keyed entry hentry
  have hvalue := h.value entry hentry
  obtain ⟨key, labels, v⟩ := entry
  simp only at heq hkey hvalue
  subst heq hkey hvalue
  exact hentry

theorem key_notMem (h : SeriesOf value ls series) (hkeys : KeyFaithful (ls ++ [l])) (hl : l ∉ ls) :
    seriesKey l ∉ series.map Prod.fst := by
  intro hmem
  obtain ⟨entry, hentry, heq⟩ := List.mem_map.mp hmem
  rw [h.keyed entry hentry] at heq
  have hin := mem_labels h hentry
  exact hl (hkeys _ (List.mem_append_left _ hin) _ (by simp) heq ▸ hin)

theorem keyFaithful_left {ls' : List Labels} (h : KeyFaithful (ls ++ ls')) : KeyFaithful ls :=
  fun l hl l' hl' => h l (List.mem_append_left _ hl) l' (List.mem_append_left _ hl')

/-- Setting the value of a label set, new or not, leaves those of the others. -/
theorem seriesOf_set (h : SeriesOf value ls series) (hkeys : KeyFaithful (ls ++ [l])) (hother : ∀ l' ≠ l, value' l' = value l') :
    SeriesOf value' (ls ++ [l]) (Assoc.set series (seriesKey l) ⟨l, value' l⟩) := by
  have hold : ∀ entry ∈ series, entry.2.labels ≠ l → entry.2.value = value' entry.2.labels := by
    intro entry hentry hne
    rw [hother _ hne]
    exact h.value entry hentry
  by_cases hl : l ∈ ls
  · obtain ⟨entry, hentry, heq⟩ := List.mem_map.mp ((h.mem l).mpr hl)
    have hset : Assoc.set series (seriesKey l) ⟨l, value' l⟩ =
        series.map fun e => (e.1, if e.1 = entry.1 then ⟨l, value' l⟩ else e.2) := by
      have hmap : Assoc.set (series.map fun e => (e.1, e.2)) entry.1 (⟨l, value' l⟩ : Series α) =
          series.map fun e => (e.1, if e.1 = entry.1 then ⟨l, value' l⟩ else e.2) :=
        Assoc.set_map_of_mem (nodup_keys h (keyFaithful_left hkeys)) hentry
      rw [h.keyed entry hentry, heq] at hmap ⊢
      simpa using hmap
    have hlabels : ∀ e ∈ series, (if e.1 = entry.1 then (⟨l, value' l⟩ : Series α) else e.2).labels = e.2.labels := by
      intro e he
      by_cases hkey : e.1 = entry.1
      · rw [if_pos hkey]
        rw [h.keyed e he, h.keyed entry hentry, heq] at hkey
        exact (hkeys _ (List.mem_append_left _ (mem_labels h he)) _ (by simp) hkey).symm
      · rw [if_neg hkey]
    have hmap : (series.map fun e => (e.1, if e.1 = entry.1 then (⟨l, value' l⟩ : Series α) else e.2)).map
        (fun e => e.2.labels) = series.map fun e => e.2.labels := by
      rw [List.map_map]
      exact List.map_congr_left hlabels
    rw [hset]
    refine ⟨?_, ?_, ?_, ?_⟩
    · intro e he
      obtain ⟨e', he', rfl⟩ := List.mem_map.mp he
      show e'.1 = seriesKey (if e'.1 = entry.1 then (⟨l, value' l⟩ : Series α) else e'.2).labels
      rw [hlabels e' he']
      exact h.keyed e' he'
    · rw [hmap]
      exact h.nodup
    · intro labels
      rw [hmap, h.mem, List.mem_append, List.mem_singleton]
      exact ⟨Or.inl, fun hor => hor.elim id fun heq => heq ▸ hl⟩
    · intro e he
      obtain ⟨e', he', rfl⟩ := List.mem_map.mp he
      by_cases hkey : e'.1 = entry.1
      · simp [hkey]
      · have hne : e'.2.labels ≠ l := by
          intro hsame
          rw [h.keyed e' he', h.keyed entry hentry, heq, hsame] at hkey
          exact hkey rfl
        simpa [hkey] using hold e' he' hne
  · rw [Assoc.set_of_notMem (key_notMem h hkeys hl)]
    refine ⟨?_, ?_, ?_, ?_⟩
    · intro e he
      rcases List.mem_append.mp he with he | he
      · exact h.keyed e he
      · rw [List.mem_singleton.mp he]
    · rw [List.map_append]
      apply List.Nodup.append h.nodup (List.nodup_singleton _)
      show List.Disjoint _ [l]
      rw [List.disjoint_singleton, h.mem]
      exact hl
    · intro labels
      simp only [List.map_append, List.mem_append, h.mem, List.map_cons, List.map_nil]
    · intro e he
      rcases List.mem_append.mp he with he | he
      · exact hold e he fun heq => hl (heq ▸ mem_labels h he)
      · rw [List.mem_singleton.mp he]

theorem seriesOf_nil : SeriesOf value [] ([] : SeriesMap α) :=
  ⟨by simp, List.nodup_nil, by simp, by simp⟩

end

/-! ## Counters and gauges over runs -/

section
variable {num : Numbers}

def Counter.incAll (counter : Counter num) (incs : List (Labels × Nat)) : Counter num :=
  incs.foldl (fun counter inc => counter.inc inc.1 (num.ofNat inc.2)) counter

def Gauge.setAll (gauge : Gauge num) (sets : List (Labels × Nat)) : Gauge num :=
  sets.foldl (fun gauge set => gauge.set (num.ofNat set.2) set.1) gauge

def amountsOf (puts : List (Labels × Nat)) (labels : Labels) : List Nat := (puts.filter fun put => put.1 = labels).map Prod.snd

variable (num) in
def added : List Nat → num.Value
  | [] => num.ofNat 0
  | n :: ns => ns.foldl (fun v n => num.add v (num.ofNat n)) (num.ofNat n)

variable {name help : Text} {puts : List (Labels × Nat)} {put : Labels × Nat} {labels : Labels} {n : Nat} {ns : List Nat}

theorem added_snoc (h : ns ≠ []) : added num (ns ++ [n]) = num.add (added num ns) (num.ofNat n) := by
  cases ns with
  | nil => exact absurd rfl h
  | cons m ns => simp [added]

theorem added_eq (h : ns.sum ≤ 2 ^ 53) : added num ns = num.ofNat ns.sum := by
  induction ns using List.reverseRecOn with
  | nil => rfl
  | append_singleton ns n ih =>
    rw [List.sum_append, List.sum_singleton] at h
    by_cases hns : ns = []
    · simp [hns, added]
    · rw [added_snoc hns, ih (by omega), num.add_ofNat _ _ h, List.sum_append, List.sum_singleton]

theorem amountsOf_self : amountsOf (puts ++ [put]) put.1 = amountsOf puts put.1 ++ [put.2] := by
  simp [amountsOf]

theorem amountsOf_other (h : labels ≠ put.1) : amountsOf (puts ++ [put]) labels = amountsOf puts labels := by
  simp [amountsOf, Ne.symm h]

theorem amountsOf_ne_nil : amountsOf puts labels ≠ [] ↔ labels ∈ puts.map Prod.fst := by
  simp [amountsOf]

theorem incAll_snoc {counter : Counter num} :
    counter.incAll (puts ++ [put]) = (counter.incAll puts).inc put.1 (num.ofNat put.2) := by
  simp [Counter.incAll]

theorem setAll_snoc {gauge : Gauge num} : gauge.setAll (puts ++ [put]) = (gauge.setAll puts).set (num.ofNat put.2) put.1 := by
  simp [Gauge.setAll]

theorem incAll_name (counter : Counter num) :
    (counter.incAll puts).name = counter.name ∧ (counter.incAll puts).help = counter.help := by
  induction puts using List.reverseRecOn with
  | nil => exact ⟨rfl, rfl⟩
  | append_singleton puts put ih =>
    rw [incAll_snoc]
    unfold Counter.inc
    dsimp only
    split <;> exact ih

theorem setAll_name (gauge : Gauge num) : (gauge.setAll puts).name = gauge.name ∧ (gauge.setAll puts).help = gauge.help := by
  induction puts using List.reverseRecOn with
  | nil => exact ⟨rfl, rfl⟩
  | append_singleton puts put ih =>
    rw [setAll_snoc]
    exact ih

def CounterHolds (counter : Counter num) (puts : List (Labels × Nat)) : Prop :=
  SeriesOf (fun labels => added num (amountsOf puts labels)) (puts.map Prod.fst) counter.series

def GaugeHolds (gauge : Gauge num) (puts : List (Labels × Nat)) : Prop :=
  SeriesOf (fun labels => num.ofNat ((amountsOf puts labels).getLastD 0)) (puts.map Prod.fst) gauge.series

/-- A counter holds what was added for each label set. -/
theorem seriesOf_incAll (hkeys : KeyFaithful (puts.map Prod.fst)) : CounterHolds ((⟨name, help, []⟩ : Counter num).incAll puts) puts := by
  unfold CounterHolds
  induction puts using List.reverseRecOn with
  | nil => exact seriesOf_nil
  | append_singleton puts put ih =>
    rw [List.map_append, List.map_cons, List.map_nil] at hkeys ⊢
    have hbefore := ih (keyFaithful_left hkeys)
    have hset : SeriesOf (fun labels => added num (amountsOf (puts ++ [put]) labels)) (puts.map Prod.fst ++ [put.1])
        (Assoc.set ((⟨name, help, []⟩ : Counter num).incAll puts).series (seriesKey put.1)
          ⟨put.1, added num (amountsOf (puts ++ [put]) put.1)⟩) :=
      seriesOf_set hbefore hkeys fun labels hne => by rw [amountsOf_other hne]
    have hinc : ((⟨name, help, []⟩ : Counter num).incAll (puts ++ [put])).series =
        Assoc.set ((⟨name, help, []⟩ : Counter num).incAll puts).series (seriesKey put.1)
          ⟨put.1, added num (amountsOf (puts ++ [put]) put.1)⟩ := by
      rw [incAll_snoc, amountsOf_self]
      unfold Counter.inc
      dsimp only
      by_cases hmem : put.1 ∈ puts.map Prod.fst
      · rw [get_of_mem_labels hbefore (keyFaithful_left hkeys) hmem, added_snoc (amountsOf_ne_nil.mpr hmem)]
      · have hnil : amountsOf puts put.1 = [] := by
          by_contra hne
          exact hmem (amountsOf_ne_nil.mp hne)
        rw [Assoc.get_of_notMem (key_notMem hbefore hkeys hmem), hnil]
        rfl
    rw [hinc]
    exact hset

/-- A gauge holds what each label set was set to last. -/
theorem seriesOf_setAll (hkeys : KeyFaithful (puts.map Prod.fst)) :
    SeriesOf (fun labels => num.ofNat ((amountsOf puts labels).getLastD 0)) (puts.map Prod.fst)
      ((⟨name, help, []⟩ : Gauge num).setAll puts).series := by
  induction puts using List.reverseRecOn with
  | nil => exact seriesOf_nil
  | append_singleton puts put ih =>
    rw [List.map_append, List.map_cons, List.map_nil] at hkeys ⊢
    have hset : SeriesOf (fun labels => num.ofNat ((amountsOf (puts ++ [put]) labels).getLastD 0))
        (puts.map Prod.fst ++ [put.1]) (Assoc.set ((⟨name, help, []⟩ : Gauge num).setAll puts).series (seriesKey put.1)
          ⟨put.1, num.ofNat ((amountsOf (puts ++ [put]) put.1).getLastD 0)⟩) :=
      seriesOf_set (ih (keyFaithful_left hkeys)) hkeys fun labels hne => by rw [amountsOf_other hne]
    have hlast : (amountsOf (puts ++ [put]) put.1).getLastD 0 = put.2 := by
      rw [amountsOf_self]
      simp
    rw [hlast] at hset
    rw [setAll_snoc]
    exact hset

/-! ## Sums over series -/

theorem foldl_add_ofNat {ns : List Nat} {n : Nat} (h : n + ns.sum ≤ 2 ^ 53) :
    (ns.map num.ofNat).foldl num.add (num.ofNat n) = num.ofNat (n + ns.sum) := by
  induction ns generalizing n with
  | nil => rfl
  | cons k ns ih =>
    rw [List.sum_cons] at h
    rw [List.map_cons, List.foldl_cons, num.add_ofNat n k (by omega), ih (by omega), List.sum_cons, Nat.add_assoc]

theorem sum_amountsOf_le (labels : Labels) : (amountsOf puts labels).sum ≤ (puts.map Prod.snd).sum :=
  (List.filter_sublist.map Prod.snd).sum_le_sum fun _ _ => Nat.zero_le _

/-- The sum over the series of a kind is that of the amounts that came with such labels. -/
theorem sum_series {counter : Counter num} (h : CounterHolds counter puts) (hsum : (puts.map Prod.snd).sum ≤ 2 ^ 53)
    (p : Labels → Bool) :
    ((counter.series.filter fun entry => p entry.2.labels).map fun entry => entry.2.value).foldl num.add (num.ofNat 0) =
      num.ofNat ((puts.filter fun put => p put.1).map Prod.snd).sum := by
  have hvalues : (counter.series.filter fun entry => p entry.2.labels).map (fun entry => entry.2.value) =
      ((((counter.series.map fun entry => entry.2.labels).filter p).map fun labels => (amountsOf puts labels).sum)).map
        num.ofNat := by
    rw [List.filter_map, List.map_map, List.map_map]
    apply List.map_congr_left
    intro entry hentry
    rw [h.value entry (List.mem_filter.mp hentry).1, added_eq ((sum_amountsOf_le _).trans hsum)]
    rfl
  have hkeys : ∀ put ∈ puts, put.1 ∈ counter.series.map fun entry => entry.2.labels :=
    fun put hput => (h.mem put.1).mpr (List.mem_map_of_mem hput)
  have hunder := Tally.sum_under (p := p) h.nodup hkeys
  have htotal : ((puts.filter fun put => p put.1).map Prod.snd).sum ≤ (puts.map Prod.snd).sum :=
    (List.filter_sublist.map Prod.snd).sum_le_sum fun _ _ => Nat.zero_le _
  unfold amountsOf at hvalues
  rw [hvalues, foldl_add_ofNat, hunder, Nat.zero_add]
  rw [hunder]
  omega

end

/-! ## Different label sets, different keys -/

section
variable {name name' v v' w w' : Text}

theorem seriesKey_one : seriesKey [(name, v)] = name ++ '=' :: v := by
  simp [seriesKey, List.intercalate]

theorem seriesKey_two (h : name ≤ name') : seriesKey [(name, v), (name', w)] = name ++ '=' :: v ++ ',' :: (name' ++ '=' :: w) := by
  have hsorted : [(name, v), (name', w)].mergeSort (fun a b => decide (a.1 ≤ b.1)) = [(name, v), (name', w)] :=
    List.mergeSort_of_pairwise (by simpa using h)
  simp [seriesKey, hsorted, List.intercalate]

theorem seriesKey_swap (h : ¬ name ≤ name') : seriesKey [(name, v), (name', w)] =
    name' ++ '=' :: w ++ ',' :: (name ++ '=' :: v) := by
  have hsorted : [(name, v), (name', w)].mergeSort (fun a b => decide (a.1 ≤ b.1)) = [(name', w), (name, v)] := by
    simp [List.mergeSort, List.MergeSort.Internal.splitInTwo, h]
  simp [seriesKey, hsorted, List.intercalate]

theorem eq_of_pair (hv : ',' ∉ name ++ '=' :: v) (hv' : ',' ∉ name ++ '=' :: v')
    (h : name ++ '=' :: v ++ ',' :: (name' ++ '=' :: w) = name ++ '=' :: v' ++ ',' :: (name' ++ '=' :: w')) : v = v' ∧ w = w' := by
  obtain ⟨hfirst, hsecond⟩ := Separator.split_first hv hv' h
  exact ⟨(List.cons.inj (List.append_cancel_left hfirst)).2, (List.cons.inj (List.append_cancel_left hsecond)).2⟩

variable {puts : List (Labels × Nat)}

/-- Label sets of a kind whose keys tell them apart. -/
theorem keyFaithful_of {α : Type} {ls : List Labels} (kind : α → Labels) (hkind : ∀ l ∈ ls, ∃ a, l = kind a)
    (hinj : ∀ a b, seriesKey (kind a) = seriesKey (kind b) → kind a = kind b) : KeyFaithful ls := by
  intro l hl l' hl' heq
  obtain ⟨a, rfl⟩ := hkind l hl
  obtain ⟨b, rfl⟩ := hkind l' hl'
  exact hinj a b heq

theorem keyFaithful_empty (h : ∀ put ∈ puts, put.1 = []) : KeyFaithful (puts.map Prod.fst) := by
  apply keyFaithful_of fun _ : Unit => []
  · intro l hl
    obtain ⟨put, hput, rfl⟩ := List.mem_map.mp hl
    exact ⟨(), h put hput⟩
  · exact fun _ _ _ => rfl

theorem keyFaithful_one (name : String) (h : ∀ put ∈ puts, ∃ value : Text, put.1 = [(name.toList, value)]) :
    KeyFaithful (puts.map Prod.fst) := by
  apply keyFaithful_of fun value : Text => [(name.toList, value)]
  · intro l hl
    obtain ⟨put, hput, rfl⟩ := List.mem_map.mp hl
    exact h put hput
  · intro v v' heq
    rw [seriesKey_one, seriesKey_one] at heq
    rw [(List.cons.inj (List.append_cancel_left heq)).2]

end

end Paymaster.Metrics
