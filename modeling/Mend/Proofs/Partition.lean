import Mathlib.Data.List.Induction
import Mathlib.Data.List.Nodup
import Mend.Proofs.Run.Accounting

/-!
# Clusters as an ordered partition

One more diagnostic joins the cluster with its key, or opens a cluster behind all others
(`groupFrom_concat`). What a cluster holds, which number it has and how the clusters are ordered is an
invariant of this step (`Grouped.insert`), and so holds of the clusters of any diagnostics.
-/

namespace Mend

/-- The pattern key of a diagnostic. -/
def Diagnostic.key (d : Diagnostic) : Text := PatternKey.ofMessage d.message

namespace Cluster

/-! ### One more diagnostic -/

/-- A cluster with one more diagnostic. -/
def add (c : Cluster) (d : Diagnostic) : Cluster := { c with others := c.others ++ [d] }

/-- A cluster with one more diagnostic, if it has the key of the cluster. -/
def join (e : Keyed) (c : Cluster) : Cluster := if c.pattern = e.1 then c.add e.2 else c

/-- Clusters, numbered from `n` on, with one more diagnostic. -/
def insert (n : Nat) (cs : List Cluster) (e : Keyed) : List Cluster :=
  if cs.any fun c => c.pattern = e.1 then cs.map (join e) else cs ++ [⟨n + cs.length, e.1, e.2, []⟩]

theorem any_pattern_iff {k : Text} {cs : List Cluster} :
    (cs.any fun c => c.pattern = k) = true ↔ k ∈ cs.map (·.pattern) := by
  simp

theorem insert_of_mem (n : Nat) {cs : List Cluster} {e : Keyed} (h : e.1 ∈ cs.map (·.pattern)) :
    insert n cs e = cs.map (join e) :=
  if_pos (any_pattern_iff.2 h)

theorem insert_of_not_mem (n : Nat) {cs : List Cluster} {e : Keyed} (h : e.1 ∉ cs.map (·.pattern)) :
    insert n cs e = cs ++ [⟨n + cs.length, e.1, e.2, []⟩] :=
  if_neg (mt any_pattern_iff.1 h)

theorem instances_add (c : Cluster) (d : Diagnostic) : (c.add d).instances = c.instances ++ [d] := rfl

/-- What does not depend on the diagnostics of a cluster stays when one of them joins. -/
theorem map_map_join {α : Type} (f : Cluster → α) (hf : ∀ c d, f (add c d) = f c) (e : Keyed)
    (cs : List Cluster) : (cs.map (join e)).map f = cs.map f := by
  rw [List.map_map]
  refine List.map_congr_left fun c _ => ?_
  rw [Function.comp_apply, join]
  split
  · exact hf c e.2
  · rfl

theorem sharing_concat (k : Text) (ds : List Keyed) (e : Keyed) :
    sharing k (ds ++ [e]) = if e.1 = k then sharing k ds ++ [e.2] else sharing k ds := by
  by_cases h : e.1 = k
  · simp [sharing, h]
  · simp [sharing, h]

theorem without_concat (k : Text) (ds : List Keyed) (e : Keyed) :
    without k (ds ++ [e]) = if e.1 = k then without k ds else without k ds ++ [e] := by
  by_cases h : e.1 = k
  · simp [without, h]
  · simp [without, h]

theorem sharing_of_no_key {k : Text} {ds : List Keyed} (h : k ∉ ds.map (·.1)) : sharing k ds = [] := by
  have hno : ∀ d ∈ ds, d.1 ≠ k := fun d hd he => h (List.mem_map.2 ⟨d, hd, he⟩)
  rw [sharing, (filter_of_no_key hno).1, List.map_nil]

theorem pattern_ne_of_mem_without {n : Nat} {k : Text} {ds : List Keyed} {c : Cluster}
    (hc : c ∈ groupFrom n (without k ds)) : c.pattern ≠ k := by
  have hin := mem_of_mem_groupFrom hc (d := c.representative) List.mem_cons_self
  simpa using (List.mem_filter.1 hin).2

theorem groupFrom_concat (n : Nat) (ds : List Keyed) (e : Keyed) :
    groupFrom n (ds ++ [e]) = insert n (groupFrom n ds) e := by
  induction n, ds using groupFrom.induct with
  | case1 n =>
    obtain ⟨k, d⟩ := e
    rw [List.nil_append, groupFrom_cons]
    simp [insert, sharing, without]
  | case2 n k d ds ih =>
    rw [List.cons_append, groupFrom_cons, groupFrom_cons, sharing_concat, without_concat]
    by_cases hk : e.1 = k
    · -- It joins the first group. The others have other patterns, and stay as they are.
      have hrest : (groupFrom (n + 1) (without k ds)).map (join e) =
          groupFrom (n + 1) (without k ds) := by
        refine (List.map_congr_left fun c hc => ?_).trans (List.map_id _)
        rw [join, if_neg (hk ▸ pattern_ne_of_mem_without hc)]
        rfl
      rw [if_pos hk, if_pos hk, insert_of_mem n (by simp [hk]), List.map_cons, hrest, join, if_pos hk.symm]
      rfl
    · rw [if_neg hk, if_neg hk, ih]
      by_cases hin : e.1 ∈ (groupFrom (n + 1) (without k ds)).map (·.pattern)
      · have hmem : e.1 ∈ (⟨n, k, d, sharing k ds⟩ :: groupFrom (n + 1) (without k ds)).map
            (·.pattern) := List.mem_cons_of_mem _ hin
        rw [insert_of_mem _ hin, insert_of_mem _ hmem, List.map_cons, join, if_neg fun h => hk h.symm]
      · have hout : e.1 ∉ (⟨n, k, d, sharing k ds⟩ :: groupFrom (n + 1) (without k ds)).map
            (·.pattern) := by
          rw [List.map_cons, List.mem_cons]
          exact not_or.2 ⟨hk, hin⟩
        have hnumber : n + 1 + (groupFrom (n + 1) (without k ds)).length =
            n + ((groupFrom (n + 1) (without k ds)).length + 1) := by omega
        rw [insert_of_not_mem _ hin, insert_of_not_mem _ hout, List.length_cons, List.cons_append, hnumber]

/-! ### The invariant -/

/-- Whether clusters, numbered from `n` on, are those of some diagnostics. -/
structure Grouped (n : Nat) (ds : List Keyed) (cs : List Cluster) : Prop where
  mem_patterns : ∀ k, k ∈ cs.map (·.pattern) ↔ k ∈ ds.map (·.1)
  ordered : (cs.map (·.pattern)).Pairwise fun p q => (ds.map (·.1)).idxOf p < (ds.map (·.1)).idxOf q
  numbers : cs.map (·.number) = List.range' n cs.length
  instances : ∀ c ∈ cs, c.instances = sharing c.pattern ds

section Insert

variable {n : Nat} {ds : List Keyed} {cs : List Cluster} (h : Grouped n ds cs) (e : Keyed)

include h

/-- A key that was seen before keeps its place. -/
theorem Grouped.idxOf_concat {k : Text} (hk : k ∈ cs.map (·.pattern)) :
    ((ds ++ [e]).map (·.1)).idxOf k = (ds.map (·.1)).idxOf k := by
  rw [List.map_append, List.idxOf_append_of_mem ((h.mem_patterns k).1 hk)]

theorem Grouped.ordered_concat : (cs.map (·.pattern)).Pairwise fun p q =>
    ((ds ++ [e]).map (·.1)).idxOf p < ((ds ++ [e]).map (·.1)).idxOf q :=
  h.ordered.imp_of_mem fun hp hq hlt => by rwa [h.idxOf_concat e hp, h.idxOf_concat e hq]

theorem Grouped.join (hin : e.1 ∈ cs.map (·.pattern)) :
    Grouped n (ds ++ [e]) (cs.map (Cluster.join e)) := by
  have hkeys := map_map_join (·.pattern) (fun _ _ => rfl) e cs
  have hnumbers := map_map_join (·.number) (fun _ _ => rfl) e cs
  refine ⟨fun k => ?_, hkeys ▸ h.ordered_concat e, ?_, fun c hc => ?_⟩
  · have he := (h.mem_patterns e.1).1 hin
    rw [hkeys, h.mem_patterns, List.map_append, List.mem_append, List.map_singleton,
      List.mem_singleton]
    exact ⟨.inl, fun hk => hk.elim (fun hold => hold) fun hnew => hnew ▸ he⟩
  · rw [hnumbers, h.numbers, List.length_map]
  · obtain ⟨b, hb, rfl⟩ := List.mem_map.1 hc
    by_cases hbe : b.pattern = e.1
    · have hpattern : (b.add e.2).pattern = b.pattern := rfl
      rw [Cluster.join, if_pos hbe, instances_add, h.instances b hb, hpattern, sharing_concat,
        if_pos hbe.symm]
    · rw [Cluster.join, if_neg hbe, sharing_concat, if_neg fun he => hbe he.symm]
      exact h.instances b hb

theorem Grouped.concat (hout : e.1 ∉ cs.map (·.pattern)) :
    Grouped n (ds ++ [e]) (cs ++ [⟨n + cs.length, e.1, e.2, []⟩]) := by
  have hnew : e.1 ∉ ds.map (·.1) := fun hk => hout ((h.mem_patterns _).2 hk)
  have hkeys : (cs ++ [Cluster.mk (n + cs.length) e.1 e.2 []]).map (·.pattern) =
      cs.map (·.pattern) ++ [e.1] := List.map_append
  refine ⟨fun k => ?_, ?_, ?_, fun c hc => ?_⟩
  · rw [hkeys, List.map_append, List.mem_append, List.mem_append, h.mem_patterns, List.map_singleton]
  · rw [hkeys]
    refine List.pairwise_append.2 ⟨h.ordered_concat e, List.pairwise_singleton _ _,
      fun p hp q hq => ?_⟩
    obtain rfl := List.mem_singleton.1 hq
    have hlt : (ds.map (·.1)).idxOf p < (ds.map (·.1)).length :=
      List.idxOf_lt_length_iff.2 ((h.mem_patterns p).1 hp)
    rw [h.idxOf_concat e hp, List.map_append, List.idxOf_append_of_notMem hnew]
    omega
  · rw [List.map_append, h.numbers, List.length_append, List.length_singleton, List.range'_concat,
      Nat.one_mul]
    rfl
  · rcases List.mem_append.1 hc with hc | hc
    · have hne : e.1 ≠ c.pattern := fun he => hout (he ▸ List.mem_map_of_mem hc)
      rw [sharing_concat, if_neg hne]
      exact h.instances c hc
    · obtain rfl := List.mem_singleton.1 hc
      rw [sharing_concat, if_pos rfl, sharing_of_no_key hnew]
      rfl

theorem Grouped.insert : Grouped n (ds ++ [e]) (Cluster.insert n cs e) := by
  by_cases hin : e.1 ∈ cs.map (·.pattern)
  · rw [insert_of_mem n hin]
    exact h.join e hin
  · rw [insert_of_not_mem n hin]
    exact h.concat e hin

end Insert

/-- The clusters of any diagnostics, by putting in one after the other. -/
theorem grouped_groupFrom (n : Nat) (ds : List Keyed) : Grouped n ds (groupFrom n ds) := by
  induction ds using List.reverseRecOn with
  | nil => exact ⟨by simp, by simp, by simp, by simp⟩
  | append_singleton ds e ih =>
    rw [groupFrom_concat]
    exact ih.insert e

/-! ### The clusters of some diagnostics -/

theorem sharing_eq_filter (k : Text) (ds : List Diagnostic) :
    sharing k (ds.map fun d => (d.key, d)) = ds.filter (·.key == k) := by
  rw [sharing, List.filter_map, List.map_map]
  exact List.map_id _

theorem grouped_ofDiagnostics (ds : List Diagnostic) :
    Grouped 1 (ds.map fun d => (d.key, d)) (ofDiagnostics ds) :=
  grouped_groupFrom 1 _

theorem map_key_keyed (ds : List Diagnostic) :
    (ds.map fun d => (d.key, d)).map (·.1) = ds.map Diagnostic.key := by
  rw [List.map_map]
  rfl

theorem ordered_patterns (ds : List Diagnostic) : ((ofDiagnostics ds).map (·.pattern)).Pairwise fun p q =>
    (ds.map Diagnostic.key).idxOf p < (ds.map Diagnostic.key).idxOf q := by
  rw [← map_key_keyed]
  exact (grouped_ofDiagnostics ds).ordered

theorem nodup_patterns (ds : List Diagnostic) : ((ofDiagnostics ds).map (·.pattern)).Nodup :=
  (ordered_patterns ds).imp (S := fun p q => p ≠ q) fun hlt he => by simp [he] at hlt

theorem instances_eq_filter {ds : List Diagnostic} {c : Cluster} (hc : c ∈ ofDiagnostics ds) :
    c.instances = ds.filter (·.key == c.pattern) :=
  ((grouped_ofDiagnostics ds).instances c hc).trans (sharing_eq_filter _ _)

theorem mem_instances_iff {ds : List Diagnostic} {c : Cluster} (hc : c ∈ ofDiagnostics ds) {d : Diagnostic}
    (hd : d ∈ ds) : d ∈ c.instances ↔ c.pattern = d.key := by
  rw [instances_eq_filter hc, List.mem_filter, beq_iff_eq]
  exact ⟨fun h => h.2.symm, fun h => ⟨hd, h.symm⟩⟩

/-- A diagnostic is in the cluster of its key and in no other one. -/
theorem exists_cluster {ds : List Diagnostic} {d : Diagnostic} (hd : d ∈ ds) : ∃ c ∈ ofDiagnostics ds,
    c.pattern = d.key ∧ ∀ b ∈ ofDiagnostics ds, d ∈ b.instances ↔ b = c := by
  have hkey : d.key ∈ (ofDiagnostics ds).map (·.pattern) := by
    rw [(grouped_ofDiagnostics ds).mem_patterns, map_key_keyed]
    exact List.mem_map_of_mem hd
  obtain ⟨c, hc, hpattern⟩ := List.mem_map.1 hkey
  refine ⟨c, hc, hpattern, fun b hb => ?_⟩
  rw [mem_instances_iff hb hd]
  constructor
  · intro h
    exact List.inj_on_of_nodup_map (nodup_patterns ds) hb hc (h.trans hpattern.symm)
  · rintro rfl
    exact hpattern

/-- Whether one cluster holds both of two diagnostics, and no other cluster one of them. -/
def Together (ds : List Diagnostic) (d e : Diagnostic) : Prop :=
  ∃ c ∈ ofDiagnostics ds, ∀ b ∈ ofDiagnostics ds, (d ∈ b.instances ↔ b = c) ∧ (e ∈ b.instances ↔ b = c)

theorem together_iff {ds : List Diagnostic} {d e : Diagnostic} (hd : d ∈ ds) (he : e ∈ ds) :
    Together ds d e ↔ d.key = e.key := by
  constructor
  · rintro ⟨c, hc, h⟩
    obtain ⟨hdc, hec⟩ := h c hc
    exact ((mem_instances_iff hc hd).1 (hdc.2 rfl)).symm.trans ((mem_instances_iff hc he).1 (hec.2 rfl))
  · intro hkey
    obtain ⟨c, hc, hpattern, hd'⟩ := exists_cluster hd
    obtain ⟨c', hc', hpattern', he'⟩ := exists_cluster he
    obtain rfl : c = c' := by
      refine List.inj_on_of_nodup_map (nodup_patterns ds) hc hc' ?_
      rw [hpattern, hpattern', hkey]
    exact ⟨c, hc, fun b hb => ⟨hd' b hb, he' b hb⟩⟩

/-- The clusters of a run are those of its own diagnostics, whatever was done before it. -/
theorem map_cluster_of_run {σ : Type} {r : Repair σ} {ds : List Diagnostic} {s s' : RunState σ}
    {m : Summary} (h : r.run ds s = (s', .ok m)) :
    m.outcomes.map (·.cluster) = ofDiagnostics (r.settings.selected ds) := by
  obtain ⟨s1, hrepair⟩ := Repair.repair_of_run h
  obtain ⟨os, rfl, haccounts⟩ := Repair.repair_accounts hrepair
  exact (Repair.map_cluster_of_accounts haccounts).1

/-- Clusters are an ordered partition. Their patterns are distinct and come in the order in which the keys
are first seen, and they are numbered from one in this order. A cluster holds the diagnostics with its
key, all of them, in their order, and the first one represents it. So each diagnostic is in exactly one
cluster, and the sizes add up. The clusters do not depend on what was clustered before: those of a run
are the same in every state in which it may begin. -/
theorem ofDiagnostics_partition (ds : List Diagnostic) :
    ((ofDiagnostics ds).map (·.pattern)).Nodup ∧
    ((ofDiagnostics ds).map (·.pattern)).Pairwise (fun p q =>
      (ds.map Diagnostic.key).idxOf p < (ds.map Diagnostic.key).idxOf q) ∧
    (∀ (i : Nat) (hi : i < (ofDiagnostics ds).length),
      (ofDiagnostics ds)[i].id = "cluster-" ++ Text.ofNat (i + 1)) ∧
    (∀ c ∈ ofDiagnostics ds, c.instances = ds.filter (·.key == c.pattern) ∧
      c.instances.head? = some c.representative) ∧
    (∀ (i : Nat) (hi : i < ds.length), ∃! c, c ∈ ofDiagnostics ds ∧ ds[i] ∈ c.instances) ∧
    ((ofDiagnostics ds).map size).sum = ds.length ∧
    ∀ (σ : Type) (r : Repair σ) (s s' : RunState σ) (m : Summary), r.run ds s = (s', .ok m) →
      m.outcomes.map (·.cluster) = ofDiagnostics (r.settings.selected ds) := by
  refine ⟨nodup_patterns ds, ordered_patterns ds, fun i hi => ?_, fun c hc => ⟨instances_eq_filter hc, rfl⟩,
    fun i hi => ?_, sum_size_ofDiagnostics ds, fun σ r s s' m h => map_cluster_of_run h⟩
  · have hnumber : (ofDiagnostics ds)[i].number = i + 1 := by
      have hat := List.getElem_of_eq (grouped_ofDiagnostics ds).numbers (i := i) (by rwa [List.length_map])
      rw [List.getElem_map, List.getElem_range'] at hat
      omega
    exact congrArg (fun n => ("cluster-" : Text) ++ Text.ofNat n) hnumber
  · obtain ⟨c, hc, -, honly⟩ := exists_cluster (List.getElem_mem hi)
    refine ⟨c, ⟨hc, (honly c hc).2 rfl⟩, fun b hb => ?_⟩
    exact (honly b hb.1).1 hb.2

end Cluster

end Mend
