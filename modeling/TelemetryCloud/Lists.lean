import Mathlib.Data.List.Induction
import Mathlib.Data.List.Nodup
import Mathlib.Order.Lattice

/-!
# Lists: decoding element by element, and rows with a key

* `mapM_eq_some` : what it means for `List.mapM` into `Option` to succeed;
* `find?_key_iff` : a lookup by key;
* `push`, `bucket`, `grouped` : a map from keys to the values pushed under them, in the order in which
  the keys came, with `bucket_grouped`, and `flatMap_grouped_perm` for the values of all the keys.
-/

namespace TelemetryCloud.Lists

variable {α β : Type*}

/-- **A list decodes** when every element does, and then to the list of what they decode to. -/
theorem mapM_eq_some {f : α → Option β} {l : List α} {l' : List β}
    (h : l.mapM f = some l') : l' = l.filterMap f ∧ ∀ a ∈ l, (f a).isSome = true := by
  induction l generalizing l' with
  | nil =>
    cases h
    simp
  | cons a l ih =>
    rw [List.mapM_cons] at h
    obtain ⟨b, hb, h⟩ := Option.bind_eq_some_iff.mp h
    obtain ⟨bs, hbs, h⟩ := Option.bind_eq_some_iff.mp h
    cases h
    obtain ⟨rfl, hall⟩ := ih hbs
    refine ⟨by rw [List.filterMap_cons_some hb], ?_⟩
    intro a' ha'
    rcases List.mem_cons.mp ha' with rfl | ha'
    · rw [hb]
      rfl
    · exact hall a' ha'

theorem length_of_mapM_eq_some {f : α → Option β} {l : List α} {l' : List β}
    (h : l.mapM f = some l') : l'.length = l.length := by
  obtain ⟨rfl, hall⟩ := mapM_eq_some h
  rw [List.length_filterMap_eq_countP]
  exact List.countP_eq_length.mpr hall

/-- A list decodes to another, element by element. -/
theorem mapM_eq_some_iff {f : α → Option β} {l : List α} {l' : List β} :
    l.mapM f = some l' ↔ List.Forall₂ (fun a b => f a = some b) l l' := by
  constructor
  · intro h
    induction l generalizing l' with
    | nil =>
      cases h
      exact .nil
    | cons a l ih =>
      rw [List.mapM_cons] at h
      obtain ⟨b, hb, h⟩ := Option.bind_eq_some_iff.mp h
      obtain ⟨bs, hbs, h⟩ := Option.bind_eq_some_iff.mp h
      cases h
      exact .cons hb (ih hbs)
  · intro h
    induction h with
    | nil => rfl
    | cons hb _ ih =>
      rw [List.mapM_cons, hb, ih]
      rfl

/-- What stands at a place decodes to what stands there. -/
theorem getElem?_of_mapM_eq_some {f : α → Option β} {l : List α} {l' : List β}
    (h : l.mapM f = some l') (i : ℕ) : l'[i]? = l[i]?.bind f := by
  induction l generalizing l' i with
  | nil =>
    cases h
    rfl
  | cons a l ih =>
    rw [List.mapM_cons] at h
    obtain ⟨b, hb, h⟩ := Option.bind_eq_some_iff.mp h
    obtain ⟨bs, hbs, h⟩ := Option.bind_eq_some_iff.mp h
    cases h
    cases i with
    | zero => exact hb.symm
    | succ i => exact ih hbs i

theorem mapM_eq_none_iff {f : α → Option β} {l : List α} :
    l.mapM f = none ↔ ∃ a ∈ l, f a = none := by
  induction l with
  | nil =>
    refine iff_of_false (fun h => nomatch h) ?_
    rintro ⟨a, ha, -⟩
    cases ha
  | cons a l ih =>
    rw [List.mapM_cons]
    cases hf : f a with
    | none => exact iff_of_true rfl ⟨a, List.mem_cons_self, hf⟩
    | some b =>
      cases hl : l.mapM f with
      | none =>
        obtain ⟨a', ha', hnone⟩ := ih.mp hl
        exact iff_of_true rfl ⟨a', List.mem_cons_of_mem a ha', hnone⟩
      | some bs =>
        refine iff_of_false (fun h => nomatch h) ?_
        rintro ⟨a', ha', hnone⟩
        rcases List.mem_cons.mp ha' with rfl | ha'
        · cases hf.symm.trans hnone
        · cases hl.symm.trans (ih.mpr ⟨a', ha', hnone⟩)

/-- The hops of a list, in order. -/
theorem hops_getElem? (l : List α) {n : ℕ} (hn : n + 1 < l.length) :
    (l.zip l.tail)[n]? = some (l[n], l[n + 1]) := by
  rw [List.getElem?_zip_eq_some, List.getElem?_tail]
  exact ⟨List.getElem?_eq_getElem _, List.getElem?_eq_getElem hn⟩

/-- What stands in a slice of a list. -/
theorem mem_take_drop {l : List α} {i j : ℕ} {a : α} :
    a ∈ (l.drop (i + 1)).take (j - i) ↔ ∃ k, i < k ∧ k ≤ j ∧ l[k]? = some a := by
  rw [List.mem_take_iff_getElem]
  constructor
  · rintro ⟨n, hn, rfl⟩
    rw [List.length_drop] at hn
    refine ⟨i + 1 + n, by omega, by omega, ?_⟩
    rw [List.getElem_drop, List.getElem?_eq_getElem (by omega)]
  · rintro ⟨k, hi, hj, hk⟩
    obtain ⟨hlt, rfl⟩ := List.getElem?_eq_some_iff.mp hk
    refine ⟨k - (i + 1), by rw [List.length_drop]; omega, ?_⟩
    rw [List.getElem_drop]
    congr 1
    omega

theorem map_some_filterMap {f : α → Option β} {l : List α} (h : ∀ a ∈ l, (f a).isSome) :
    (l.filterMap f).map some = l.map f := by
  induction l with
  | nil => rfl
  | cons a l ih =>
    obtain ⟨b, hb⟩ := Option.isSome_iff_exists.mp (h a List.mem_cons_self)
    rw [List.filterMap_cons_some hb, List.map_cons, List.map_cons, hb,
      ih fun a ha => h a (List.mem_cons_of_mem _ ha)]

/-- The key of the first element, if it is the key of every other. -/
theorem ite_all_key_iff {κ : Type*} [DecidableEq κ] {key : α → κ} {a : α} {others : List α} {k : κ} :
    (if others.all (key · = key a) then some (key a) else none) = some k ↔
      ∀ b ∈ a :: others, key b = k := by
  constructor
  · intro h
    split at h
    · next hall =>
      cases h
      refine List.forall_mem_cons.mpr ⟨rfl, fun b hb => ?_⟩
      exact of_decide_eq_true (List.all_eq_true.mp hall b hb)
    · cases h
  · intro h
    have ha := h a List.mem_cons_self
    rw [if_pos, ha]
    refine List.all_eq_true.mpr fun b hb => decide_eq_true ?_
    exact (h b (List.mem_cons_of_mem a hb)).trans ha.symm

theorem exists_getElem? {l : List α} {n : ℕ} (hn : n < l.length) : ∃ a, l[n]? = some a :=
  ⟨l[n], List.getElem?_eq_getElem hn⟩

theorem pairwise_getElem? {r : α → α → Prop} {l : List α} (h : l.Pairwise r) {i j : ℕ} {a b : α}
    (ha : l[i]? = some a) (hb : l[j]? = some b) (hij : i < j) : r a b := by
  obtain ⟨hi, rfl⟩ := List.getElem?_eq_some_iff.mp ha
  obtain ⟨hj, rfl⟩ := List.getElem?_eq_some_iff.mp hb
  exact List.pairwise_iff_getElem.mp h i j hi hj hij

theorem pairwise_concat_iff {r : α → α → Prop} {l : List α} {a : α} :
    (l ++ [a]).Pairwise r ↔ l.Pairwise r ∧ ∀ b ∈ l, r b a := by
  rw [List.pairwise_append]
  constructor
  · rintro ⟨hl, -, hlast⟩
    exact ⟨hl, fun b hb => hlast b hb a List.mem_cons_self⟩
  · rintro ⟨hl, hlast⟩
    refine ⟨hl, List.pairwise_singleton _ _, fun b hb c hc => ?_⟩
    rw [List.mem_singleton.mp hc]
    exact hlast b hb

/-- In a list of strictly increasing keys the key decides the element. -/
theorem eq_of_key_eq {κ : Type*} [Preorder κ] {key : α → κ} {l : List α}
    (hl : l.Pairwise fun a b => key a < key b) {a b : α} (ha : a ∈ l) (hb : b ∈ l)
    (hkey : key a = key b) : a = b :=
  List.inj_on_of_nodup_map (List.pairwise_map.mpr (hl.imp ne_of_lt)) ha hb hkey

/-- Two parts of a sorted list, one wholly before the other. -/
theorem filter_append_filter {κ : Type*} [LinearOrder κ] {key : α → κ} {l : List α}
    (hsorted : l.Pairwise fun a b => key a ≤ key b) {p q : α → Prop} [DecidablePred p]
    [DecidablePred q] (hpq : ∀ a b, p a → q b → key a < key b) :
    l.filter p ++ l.filter q = l.filter fun a => p a ∨ q a := by
  induction l with
  | nil => rfl
  | cons a l ih =>
    rw [List.pairwise_cons] at hsorted
    have ih := ih hsorted.2
    by_cases hp : p a
    · have hq : ¬ q a := fun hq => absurd (hpq a a hp hq) (lt_irrefl _)
      simp only [List.filter_cons, hp, hq, true_or, decide_true, decide_false, if_true,
        Bool.false_eq_true, if_false, List.cons_append, ih]
    · by_cases hq : q a
      · -- nothing of the first part comes after `a`
        have hnil : l.filter p = [] := by
          rw [List.filter_eq_nil_iff]
          intro b hb hpb
          exact absurd (hpq b a (of_decide_eq_true hpb) hq) (not_lt.mpr (hsorted.1 b hb))
        rw [hnil, List.nil_append] at ih
        simp only [List.filter_cons, hp, hq, or_true, decide_true, decide_false, if_true,
          Bool.false_eq_true, if_false, hnil, List.nil_append, ih]
      · simp only [List.filter_cons, hp, hq, or_self, decide_false, Bool.false_eq_true, if_false,
          ih]

/-! ### Rows with a key -/

section Key

variable {κ : Type*} [DecidableEq κ] {key : α → κ} {l : List α} {k : κ} {a : α}

theorem of_find?_key (h : l.find? (key · = k) = some a) : a ∈ l ∧ key a = k := by
  have hkey := List.find?_some (p := fun a => decide (key a = k)) h
  exact ⟨List.mem_of_find?_eq_some h, of_decide_eq_true hkey⟩

/-- **A lookup by key** finds the one row with the key. -/
theorem find?_key_iff (hkeys : (l.map key).Nodup) :
    l.find? (key · = k) = some a ↔ a ∈ l ∧ key a = k := by
  refine ⟨of_find?_key, ?_⟩
  intro h
  induction l with
  | nil => exact absurd h.1 List.not_mem_nil
  | cons b l ih =>
    rw [List.map_cons, List.nodup_cons] at hkeys
    rcases List.mem_cons.mp h.1 with hb | hmem
    · subst hb
      exact List.find?_cons_of_pos (decide_eq_true h.2)
    · have hne : key b ≠ k := by
        intro hb
        rw [hb, ← h.2] at hkeys
        exact hkeys.1 (List.mem_map_of_mem hmem)
      have htail := ih hkeys.2 ⟨hmem, h.2⟩
      rw [← htail]
      exact List.find?_cons_of_neg fun hb => hne (of_decide_eq_true hb)

end Key

/-! ### Buckets -/

section Buckets

variable {κ : Type*} [DecidableEq κ]

/-- A value goes to the end of the bucket of its key, and a new key comes last. -/
def push (key : κ) (value : β) : List (κ × List β) → List (κ × List β)
  | [] => [(key, [value])]
  | (k, values) :: rest =>
    if k = key then (k, values ++ [value]) :: rest else (k, values) :: push key value rest

/-- The values under a key. -/
def bucket (key : κ) : List (κ × List β) → List β
  | [] => []
  | (k, values) :: rest => if k = key then values else bucket key rest

def grouped (pairs : List (κ × β)) : List (κ × List β) :=
  pairs.foldl (fun index pair => push pair.1 pair.2 index) []

theorem bucket_push (key k : κ) (value : β) (index : List (κ × List β)) :
    bucket k (push key value index)
      = if key = k then bucket k index ++ [value] else bucket k index := by
  induction index with
  | nil => rfl
  | cons entry index ih =>
    obtain ⟨k', values⟩ := entry
    unfold push
    by_cases hk' : k' = key
    · subst hk'
      rw [if_pos rfl]
      by_cases hk : k' = k
      · simp [bucket, hk]
      · simp [bucket, hk]
    · rw [if_neg hk']
      by_cases hk : k' = k
      · subst hk
        simp [bucket, Ne.symm hk']
      · simpa [bucket, hk] using ih

/-- **A bucket** holds the values of its key, in their order. -/
theorem bucket_grouped (k : κ) (pairs : List (κ × β)) :
    bucket k (grouped pairs) = (pairs.filter (·.1 = k)).map Prod.snd := by
  have hfold : ∀ index : List (κ × List β),
      bucket k (pairs.foldl (fun index pair => push pair.1 pair.2 index) index)
        = bucket k index ++ (pairs.filter (·.1 = k)).map Prod.snd := by
    induction pairs with
    | nil => exact fun index => (List.append_nil _).symm
    | cons pair pairs ih =>
      intro index
      rw [List.foldl_cons, ih, bucket_push, List.filter_cons]
      by_cases hk : pair.1 = k
      · simp [hk]
      · simp [hk]
  exact hfold []

theorem mem_bucket_grouped {k : κ} {pairs : List (κ × β)} {value : β} :
    value ∈ bucket k (grouped pairs) ↔ (k, value) ∈ pairs := by
  rw [bucket_grouped]
  simp

theorem mem_of_mem_push {key k : κ} {value v : β} {index : List (κ × List β)} {values : List β}
    (hentry : (k, values) ∈ push key value index) (hv : v ∈ values) :
    (k = key ∧ v = value) ∨ ∃ old, (k, old) ∈ index ∧ v ∈ old := by
  induction index with
  | nil =>
    obtain ⟨rfl, rfl⟩ := Prod.mk.inj (List.mem_singleton.mp hentry)
    exact Or.inl ⟨rfl, List.mem_singleton.mp hv⟩
  | cons entry index ih =>
    unfold push at hentry
    split at hentry
    · next hk =>
      rcases List.mem_cons.mp hentry with h | hentry
      · obtain ⟨rfl, rfl⟩ := Prod.mk.inj h
        rcases List.mem_append.mp hv with hv | hv
        · exact Or.inr ⟨_, List.mem_cons_self, hv⟩
        · exact Or.inl ⟨hk, List.mem_singleton.mp hv⟩
      · exact Or.inr ⟨values, List.mem_cons_of_mem _ hentry, hv⟩
    · rcases List.mem_cons.mp hentry with h | hentry
      · exact Or.inr ⟨values, h ▸ List.mem_cons_self, hv⟩
      · rcases ih hentry with h | ⟨old, hold, hv⟩
        · exact Or.inl h
        · exact Or.inr ⟨old, List.mem_cons_of_mem _ hold, hv⟩

/-- What stands under a key was pushed under it. -/
theorem mem_of_mem_grouped {k : κ} {v : β} {pairs : List (κ × β)} {values : List β}
    (hentry : (k, values) ∈ grouped pairs) (hv : v ∈ values) : (k, v) ∈ pairs := by
  have hfold : ∀ index : List (κ × List β),
      (k, values) ∈ pairs.foldl (fun index pair => push pair.1 pair.2 index) index →
      (k, v) ∈ pairs ∨ ∃ old, (k, old) ∈ index ∧ v ∈ old := by
    clear hentry
    induction pairs with
    | nil => exact fun index h => Or.inr ⟨values, h, hv⟩
    | cons pair pairs ih =>
      intro index h
      rcases ih _ h with h | ⟨old, hold, hv⟩
      · exact Or.inl (List.mem_cons_of_mem _ h)
      · rcases mem_of_mem_push hold hv with ⟨rfl, rfl⟩ | hold
        · exact Or.inl List.mem_cons_self
        · exact Or.inr hold
  exact (hfold [] hentry).resolve_right fun ⟨_, h, _⟩ => absurd h List.not_mem_nil

/-- A bucket that holds something is among the entries. -/
theorem bucket_mem {k : κ} {index : List (κ × List β)} (h : bucket k index ≠ []) :
    (k, bucket k index) ∈ index := by
  induction index with
  | nil => exact absurd rfl h
  | cons entry index ih =>
    obtain ⟨k', values⟩ := entry
    unfold bucket at h ⊢
    by_cases hk : k' = k
    · subst hk
      rw [if_pos rfl]
      exact List.mem_cons_self
    · rw [if_neg hk] at h ⊢
      exact List.mem_cons_of_mem _ (ih h)

theorem mem_keys_push {key k : κ} {value : β} {index : List (κ × List β)} :
    k ∈ (push key value index).map Prod.fst ↔ k = key ∨ k ∈ index.map Prod.fst := by
  induction index with
  | nil => simp [push]
  | cons entry index ih =>
    unfold push
    split
    · next hk => simp [hk]
    · rw [List.map_cons, List.mem_cons, ih, List.map_cons, List.mem_cons]
      tauto

/-- No key has two buckets. -/
theorem nodup_keys_grouped (pairs : List (κ × β)) : ((grouped pairs).map Prod.fst).Nodup := by
  have hpush : ∀ (key : κ) (value : β) (index : List (κ × List β)),
      (index.map Prod.fst).Nodup → ((push key value index).map Prod.fst).Nodup := by
    intro key value index
    induction index with
    | nil => exact fun _ => List.nodup_singleton key
    | cons entry index ih =>
      intro hnodup
      obtain ⟨hnew, hrest⟩ := List.nodup_cons.mp hnodup
      unfold push
      split
      · exact List.nodup_cons.mpr ⟨hnew, hrest⟩
      · next hk =>
        refine List.nodup_cons.mpr ⟨fun hmem => ?_, ih hrest⟩
        rcases mem_keys_push.mp hmem with h | h
        · exact hk h
        · exact hnew h
  have hfold : ∀ index : List (κ × List β), (index.map Prod.fst).Nodup →
      ((pairs.foldl (fun index pair => push pair.1 pair.2 index) index).map Prod.fst).Nodup := by
    induction pairs with
    | nil => exact fun index hnodup => hnodup
    | cons pair pairs ih => exact fun index hnodup => ih _ (hpush _ _ index hnodup)
  exact hfold [] List.nodup_nil

/-- **The buckets hold every value once.** -/
theorem flatMap_grouped_perm (pairs : List (κ × β)) :
    ((grouped pairs).flatMap Prod.snd).Perm (pairs.map Prod.snd) := by
  have hpush : ∀ (key : κ) (value : β) (index : List (κ × List β)),
      ((push key value index).flatMap Prod.snd).Perm (index.flatMap Prod.snd ++ [value]) := by
    intro key value index
    induction index with
    | nil => exact List.Perm.refl _
    | cons entry index ih =>
      unfold push
      split
      · rw [List.flatMap_cons, List.flatMap_cons, List.append_assoc, List.append_assoc]
        exact List.perm_append_comm.append_left entry.2
      · rw [List.flatMap_cons, List.flatMap_cons, List.append_assoc]
        exact ih.append_left entry.2
  have hfold : ∀ index : List (κ × List β),
      ((pairs.foldl (fun index pair => push pair.1 pair.2 index) index).flatMap Prod.snd).Perm
        (index.flatMap Prod.snd ++ pairs.map Prod.snd) := by
    induction pairs with
    | nil =>
      intro index
      rw [List.map_nil, List.append_nil, List.foldl_nil]
    | cons pair pairs ih =>
      intro index
      rw [List.foldl_cons, List.map_cons, ← List.singleton_append, ← List.append_assoc]
      exact (ih _).trans ((hpush _ _ index).append_right _)
  exact hfold []

theorem foldl_push_of_forall_key {k : κ} {pairs : List (κ × β)} (h : ∀ pair ∈ pairs, pair.1 = k)
    (values : List β) :
    pairs.foldl (fun index pair => push pair.1 pair.2 index) [(k, values)]
      = [(k, values ++ pairs.map Prod.snd)] := by
  induction pairs generalizing values with
  | nil => rw [List.map_nil, List.append_nil, List.foldl_nil]
  | cons pair pairs ih =>
    have hpush : push pair.1 pair.2 [(k, values)] = [(k, values ++ [pair.2])] :=
      if_pos (h pair List.mem_cons_self).symm
    rw [List.foldl_cons, hpush, ih fun p hp => h p (List.mem_cons_of_mem _ hp), List.map_cons,
      List.append_assoc, List.singleton_append]

/-- Under one key there is one bucket. -/
theorem grouped_of_forall_key {k : κ} {pairs : List (κ × β)} (hne : pairs ≠ [])
    (h : ∀ pair ∈ pairs, pair.1 = k) : grouped pairs = [(k, pairs.map Prod.snd)] := by
  cases pairs with
  | nil => exact absurd rfl hne
  | cons pair pairs =>
    obtain rfl := h pair List.mem_cons_self
    exact foldl_push_of_forall_key (fun p hp => h p (List.mem_cons_of_mem _ hp)) [pair.2]

end Buckets

end TelemetryCloud.Lists
