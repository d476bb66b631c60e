import Mathlib.Data.List.Basic
import Mend.Cluster
import Mend.Proofs.Interleaving

/-!
# What clustering keeps

Each diagnostic is in exactly one cluster, so that the sizes add up (`sum_size_ofDiagnostics`). Where two
lists of diagnostics have no pattern key in common, the clusters of an interleaving of both are the
clusters of each, under other numbers and interleaved as well (`ofDiagnostics_interleaving`).
-/

namespace Mend.Cluster

theorem size_pos (c : Cluster) : 1 ≤ c.size := Nat.succ_pos _

/-! ### Members -/

theorem length_sharing_add_without (k : Text) (ds : List Keyed) :
    (sharing k ds).length + (without k ds).length = ds.length := by
  rw [sharing, without, List.length_map]
  exact List.length_eq_length_filter_add (fun d : Keyed => d.1 == k) |>.symm

/-- The diagnostics of a group have its pattern as their key. -/
theorem mem_of_mem_groupFrom {n : Nat} {ds : List Keyed} {c : Cluster} (hc : c ∈ groupFrom n ds)
    {d : Diagnostic} (hd : d ∈ c.instances) : (c.pattern, d) ∈ ds := by
  induction n, ds using groupFrom.induct with
  | case1 n => simp at hc
  | case2 n k e ds ih =>
    rw [groupFrom_cons, List.mem_cons] at hc
    rcases hc with rfl | hc
    · simp only [instances, List.mem_cons] at hd ⊢
      rcases hd with rfl | hd
      · exact .inl rfl
      · obtain ⟨⟨j, d2⟩, hmem, rfl⟩ := List.mem_map.1 hd
        obtain ⟨hin, hkey⟩ := List.mem_filter.1 hmem
        obtain rfl : j = k := by simpa using hkey
        exact .inr hin
    · exact List.mem_cons_of_mem _ (List.mem_of_mem_filter (ih hc))

theorem mem_of_mem_instances {ds : List Diagnostic} {c : Cluster} (hc : c ∈ ofDiagnostics ds)
    {d : Diagnostic} (hd : d ∈ c.instances) : d ∈ ds := by
  obtain ⟨e, he, hpair⟩ := List.mem_map.1 (mem_of_mem_groupFrom hc hd)
  obtain ⟨-, rfl⟩ := Prod.mk.inj hpair
  exact he

/-- The messages of a cluster have its pattern as their key. -/
theorem ofMessage_of_mem_instances {ds : List Diagnostic} {c : Cluster} (hc : c ∈ ofDiagnostics ds)
    {d : Diagnostic} (hd : d ∈ c.instances) : PatternKey.ofMessage d.message = c.pattern := by
  obtain ⟨e, -, hpair⟩ := List.mem_map.1 (mem_of_mem_groupFrom hc hd)
  obtain ⟨hkey, rfl⟩ := Prod.mk.inj hpair
  exact hkey

theorem sum_size_groupFrom (n : Nat) (ds : List Keyed) :
    ((groupFrom n ds).map size).sum = ds.length := by
  induction n, ds using groupFrom.induct with
  | case1 n => simp
  | case2 n k d ds ih =>
    have hlen := length_sharing_add_without k ds
    rw [groupFrom_cons, List.map_cons, List.sum_cons, ih]
    simp only [size, instances, List.length_cons]
    omega

/-- The sizes of the clusters add up to the number of diagnostics. -/
theorem sum_size_ofDiagnostics (ds : List Diagnostic) :
    ((ofDiagnostics ds).map size).sum = ds.length := by
  rw [ofDiagnostics, sum_size_groupFrom, List.length_map]

/-! ### Clusters of interleavings -/

/-- Whether two clusters differ at most in their numbers. -/
def Same (c d : Cluster) : Prop := d = { c with number := d.number }

/-- Keys that are not in the list share nothing and leave everything. -/
theorem filter_of_no_key {k : Text} {ds : List Keyed} (h : ∀ d ∈ ds, d.1 ≠ k) :
    ds.filter (·.1 == k) = [] ∧ without k ds = ds := by
  refine ⟨List.filter_eq_nil_iff.2 fun d hd => ?_, List.filter_eq_self.2 fun d hd => ?_⟩
  · simpa using h d hd
  · simpa using h d hd

theorem without_interleaving {as bs ls : List Keyed} (h : Interleaving Eq as bs ls) {k : Text}
    (hno : ∀ b ∈ bs, b.1 ≠ k) : Interleaving Eq (without k as) bs (without k ls) := by
  have hcut := h.filter (·.1 != k) (·.1 != k) fun _ _ e => by rw [e]
  have hall : bs.filter (·.1 != k) = bs := (filter_of_no_key hno).2
  rwa [hall] at hcut

/-- The first diagnostic opens a group; it takes all diagnostics with its key from the list that it comes
from, and none from the other one. -/
theorem groupFrom_cons_interleaving {as bs ls : List Keyed} {a : Keyed}
    (h : Interleaving Eq as bs ls) (hno : ∀ b ∈ bs, b.1 ≠ a.1) {m n k : Nat}
    (hrest : Interleaving Same (groupFrom (m + 1) (without a.1 as)) (groupFrom n bs)
      (groupFrom (k + 1) (without a.1 ls))) :
    Interleaving Same (groupFrom m (a :: as)) (groupFrom n bs) (groupFrom k (a :: ls)) := by
  obtain ⟨key, d⟩ := a
  have hcut := h.filter (·.1 == key) (·.1 == key) fun _ _ e => by rw [e]
  rw [(filter_of_no_key hno).1] at hcut
  rw [groupFrom_cons, groupFrom_cons]
  refine .left ?_ hrest
  rw [Same, sharing, sharing, hcut.eq_of_nil]

theorem groupFrom_interleaving {as bs ls : List Keyed} (h : Interleaving Eq as bs ls)
    (hkeys : ∀ a ∈ as, ∀ b ∈ bs, a.1 ≠ b.1) (m n k : Nat) :
    Interleaving Same (groupFrom m as) (groupFrom n bs) (groupFrom k ls) := by
  -- By the length of the joint list: what a group leaves is shorter, but it is no tail of the list.
  induction hlen : ls.length using Nat.strongRecOn generalizing as bs ls m n k with
  | ind size ih =>
    cases h with
    | nil => simpa using Interleaving.nil
    | @left a l as bs ls he rest =>
      subst he
      have hle := length_without_le a.1 ls
      have hlt : (without a.1 ls).length < size := by
        simp only [List.length_cons] at hlen
        omega
      have hno : ∀ b ∈ bs, b.1 ≠ a.1 := fun b hb => (hkeys a List.mem_cons_self b hb).symm
      refine groupFrom_cons_interleaving rest hno (ih _ hlt (without_interleaving rest hno) ?_ _ _ _ rfl)
      exact fun x hx => hkeys x (List.mem_cons_of_mem _ (List.mem_of_mem_filter hx))
    | @right b l as bs ls he rest =>
      subst he
      have hle := length_without_le b.1 ls
      have hlt : (without b.1 ls).length < size := by
        simp only [List.length_cons] at hlen
        omega
      have hno : ∀ a ∈ as, a.1 ≠ b.1 := fun a ha => hkeys a ha b List.mem_cons_self
      have hleft := without_interleaving rest.symm hno
      refine (groupFrom_cons_interleaving rest.symm hno (ih _ hlt hleft.symm ?_ _ _ _ rfl).symm).symm
      exact fun x hx y hy => hkeys x hx y (List.mem_cons_of_mem _ (List.mem_of_mem_filter hy))

/-- The clusters of an interleaving are those of its two parts if these have no pattern key in common. -/
theorem ofDiagnostics_interleaving {as bs ls : List Diagnostic} (h : Interleaving Eq as bs ls)
    (hkeys : ∀ a ∈ as, ∀ b ∈ bs, PatternKey.ofMessage a.message ≠ PatternKey.ofMessage b.message) :
    Interleaving Same (ofDiagnostics as) (ofDiagnostics bs) (ofDiagnostics ls) := by
  refine groupFrom_interleaving (h.map _ _ fun _ _ e => by rw [e]) ?_ 1 1 1
  intro x hx y hy
  obtain ⟨a, ha, rfl⟩ := List.mem_map.1 hx
  obtain ⟨b, hb, rfl⟩ := List.mem_map.1 hy
  exact hkeys a ha b hb

end Mend.Cluster
