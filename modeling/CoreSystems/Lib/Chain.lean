import Mathlib.Data.List.Basic
import Mathlib.Data.List.Nodup
import Mathlib.Logic.Equiv.Basic

/-!
# CoreSystems.Lib.Chain

Singly linked segments in a heap.

A heap is seen through `link`: the successor and the payload stored at an address,
or `none` where nothing is allocated. `Seg link p ns q` says that following the
links from `p` visits exactly the addresses of `ns`, in order and with these
payloads, and arrives at `q`; a list ending in null is `Seg link p ns none`.

Links are functional, so a segment that ends in null is determined by its start
(`Seg.unique`) and cannot visit an address twice (`Seg.nodup`).

`Partition link ns` says that the chains `ns i` share out the whole heap: every
allocated address is on exactly one of them. It is kept when one chain is rewritten
(`Partition.update`) and when chains change hands (`Partition.permute`).

Both keys and payloads are arbitrary types. A structure that embeds its links gives `link`,
and the lemmas about segments replace every argument about pointers: where a node is inserted
or erased, `Seg.splice` asks only which links have changed, and gives back the chain.
-/

namespace Chain

variable {κ ν : Type}

/-- The links from `p` visit `ns` and arrive at `q`. By recursion on the nodes; the last link
is the first of an empty segment. -/
def Seg (link : κ → Option (Option κ × ν)) : Option κ → List (κ × ν) → Option κ → Prop
  | p, [], q => p = q
  | p, (a, v) :: ns, q => p = some a ∧ ∃ r, link a = some (r, v) ∧ Seg link r ns q

/-- The addresses of a list of nodes. -/
def addrs (ns : List (κ × ν)) : List κ := ns.map Prod.fst

/-- The address of the first node, or `q` when there is none. -/
def first (ns : List (κ × ν)) (q : Option κ) : Option κ := (ns.head?.map Prod.fst).or q

/-- The address of the last node, or null. No end is given: the tail pointer of an empty list
is null. -/
def last (ns : List (κ × ν)) : Option κ := ns.getLast?.map Prod.fst

/-! ### Addresses and ends

Ends of a chain are addresses, not nodes: `first` and `last` are what the head and the tail
pointer of a list hold. The simp lemmas compute them on concatenations, which is how a chain
is cut at a node. -/

@[simp] theorem addrs_nil : addrs ([] : List (κ × ν)) = [] := rfl

@[simp] theorem addrs_cons (n : κ × ν) (ns : List (κ × ν)) :
    addrs (n :: ns) = n.1 :: addrs ns := rfl

@[simp] theorem addrs_append (xs ys : List (κ × ν)) :
    addrs (xs ++ ys) = addrs xs ++ addrs ys := by
  simp [addrs]

@[simp] theorem length_addrs (ns : List (κ × ν)) : (addrs ns).length = ns.length := by
  simp [addrs]

@[simp] theorem first_nil (q : Option κ) : first ([] : List (κ × ν)) q = q := rfl

@[simp] theorem first_cons (n : κ × ν) (ns : List (κ × ν)) (q : Option κ) :
    first (n :: ns) q = some n.1 := rfl

@[simp] theorem first_append (xs ys : List (κ × ν)) (q : Option κ) :
    first (xs ++ ys) q = first xs (first ys q) := by
  cases xs <;> rfl

@[simp] theorem last_nil : last ([] : List (κ × ν)) = none := rfl

@[simp] theorem last_concat (ns : List (κ × ν)) (n : κ × ν) :
    last (ns ++ [n]) = some n.1 := by
  simp [last]

@[simp] theorem last_append_cons (xs : List (κ × ν)) (n : κ × ν) (ys : List (κ × ν)) :
    last (xs ++ n :: ys) = last (n :: ys) := by
  unfold last; rw [List.getLast?_append_cons]

@[simp] theorem last_cons_cons (m n : κ × ν) (ns : List (κ × ν)) :
    last (m :: n :: ns) = last (n :: ns) := by
  simp [last]

@[simp] theorem last_singleton (n : κ × ν) : last [n] = some n.1 := rfl

@[simp] theorem first_eq_none_iff {ns : List (κ × ν)} {q : Option κ} :
    first ns q = none ↔ ns = [] ∧ q = none := by
  cases ns <;> simp

@[simp] theorem last_eq_none_iff {ns : List (κ × ν)} : last ns = none ↔ ns = [] := by
  simp [last]

theorem last_mem_addrs {ns : List (κ × ν)} {a : κ} (h : last ns = some a) : a ∈ addrs ns := by
  simp only [last, Option.map_eq_some_iff] at h
  obtain ⟨n, hn, rfl⟩ := h
  exact List.mem_map_of_mem (List.mem_of_getLast? hn)

/-- With distinct addresses, a node is the first one only in front. -/
theorem first_eq_self_iff {xs ys : List (κ × ν)} {n : κ × ν} {q : Option κ}
    (hnd : (addrs (xs ++ n :: ys)).Nodup) : first (xs ++ n :: ys) q = some n.1 ↔ xs = [] := by
  cases xs with
  | nil => simp
  | cons m xs =>
      simp only [List.cons_append, addrs_cons, addrs_append, List.nodup_cons] at hnd
      simp only [List.cons_append, first_cons, Option.some.injEq, reduceCtorEq, iff_false]
      intro hm
      exact hnd.1 (by simp [hm])

/-- With distinct addresses, a node is the last one only at the end. -/
theorem last_eq_self_iff {xs ys : List (κ × ν)} {n : κ × ν}
    (hnd : (addrs (xs ++ n :: ys)).Nodup) : last (xs ++ n :: ys) = some n.1 ↔ ys = [] := by
  rw [last_append_cons]
  cases ys with
  | nil => simp
  | cons m ys =>
      simp only [addrs_append, addrs_cons, List.nodup_append, List.nodup_cons] at hnd
      simp only [last_cons_cons, reduceCtorEq, iff_false]
      intro hlast
      exact hnd.2.1.1 (last_mem_addrs hlast)

/-! ### Segments

A segment is a predicate on the links between two ends, so a chain can be cut and joined
(`seg_append`) and does not depend on anything but its own links (`Seg.frame`). -/

section Seg

variable {link link' : κ → Option (Option κ × ν)} {p q : Option κ} {ns xs ys : List (κ × ν)}
  {a : κ} {v : ν}

@[simp] theorem seg_nil : Seg link p [] q ↔ p = q := Iff.rfl

@[simp] theorem seg_cons : Seg link p ((a, v) :: ns) q ↔
    p = some a ∧ ∃ r, link a = some (r, v) ∧ Seg link r ns q := Iff.rfl

theorem Seg.start (h : Seg link p ns q) : p = first ns q := by
  cases ns with
  | nil => exact h
  | cons n ns => exact h.1

/-- A segment splits wherever its list of nodes does. -/
theorem seg_append : Seg link p (xs ++ ys) q ↔ ∃ r, Seg link p xs r ∧ Seg link r ys q := by
  induction xs generalizing p with
  | nil => simp
  | cons n xs ih =>
      obtain ⟨a, v⟩ := n
      simp only [List.cons_append, seg_cons, ih]
      constructor
      · intro hchain
        obtain ⟨rfl, r, hl, r', hx, hy⟩ := hchain
        exact ⟨r', ⟨rfl, r, hl, hx⟩, hy⟩
      · intro hchain
        obtain ⟨r', ⟨rfl, r, hl, hx⟩, hy⟩ := hchain
        exact ⟨rfl, r, hl, r', hx, hy⟩

/-- The successor stored in a node is where the rest of the segment starts. -/
theorem Seg.link_mid (h : Seg link p (xs ++ (a, v) :: ys) q) :
    link a = some (first ys q, v) := by
  obtain ⟨r, -, -, r', hl, hy⟩ := seg_append.mp h
  rw [hl, hy.start]

/-- Every node of a segment is allocated and stores its payload. -/
theorem Seg.link_of_mem (h : Seg link p ns q) (hn : (a, v) ∈ ns) :
    ∃ r, link a = some (r, v) := by
  obtain ⟨xs, ys, rfl⟩ := List.append_of_mem hn
  exact ⟨_, h.link_mid⟩

theorem Seg.link_ne_none (h : Seg link p ns q) (ha : a ∈ addrs ns) : link a ≠ none := by
  obtain ⟨n, hn, rfl⟩ := List.mem_map.mp ha
  obtain ⟨r, hr⟩ := h.link_of_mem (a := n.1) (v := n.2) hn
  simp [hr]

/-- **Frame.** A segment only depends on the links stored at its own addresses. -/
theorem Seg.frame (h : Seg link p ns q) (hl : ∀ a ∈ addrs ns, link' a = link a) :
    Seg link' p ns q := by
  induction ns generalizing p with
  | nil => exact h
  | cons n ns ih =>
      obtain ⟨a, v⟩ := n
      obtain ⟨rfl, r, hr, hs⟩ := h
      exact ⟨rfl, r, by rw [hl a (by simp), hr], ih hs fun b hb => hl b (by simp [hb])⟩

/-- A segment that ends in null is determined by where it starts. -/
theorem Seg.unique (hx : Seg link p xs none) (hy : Seg link p ys none) : xs = ys := by
  induction xs generalizing p ys with
  | nil =>
      cases ys with
      | nil => rfl
      | cons n ys =>
          obtain rfl : p = none := hx
          exact absurd hy.1 (by simp)
  | cons n xs ih =>
      obtain ⟨a, v⟩ := n
      obtain ⟨rfl, r, hr, hs⟩ := hx
      cases ys with
      | nil => exact absurd hy (by simp)
      | cons m ys =>
          obtain ⟨b, w⟩ := m
          obtain ⟨hb, r', hr', hs'⟩ := hy
          obtain rfl := Option.some.inj hb
          obtain ⟨rfl, rfl⟩ : r = r' ∧ v = w := by simpa [hr] using hr'
          rw [ih hs hs']

/-- Two segments that end in null and share an address share everything from there on. -/
theorem Seg.suffix_unique {p' : Option κ} {v' : ν} {xs' ys' : List (κ × ν)}
    (h : Seg link p (xs ++ (a, v) :: ys) none) (h' : Seg link p' (xs' ++ (a, v') :: ys') none) :
    (a, v) :: ys = (a, v') :: ys' := by
  obtain ⟨r, -, hy⟩ := seg_append.mp h
  obtain ⟨r', -, hy'⟩ := seg_append.mp h'
  obtain rfl := hy.1
  obtain rfl := hy'.1
  exact hy.unique hy'

/-- A chain that ends in null visits no address twice. -/
theorem Seg.nodup (h : Seg link p ns none) : (addrs ns).Nodup := by
  induction ns generalizing p with
  | nil => exact List.nodup_nil
  | cons n ns ih =>
      obtain ⟨a, v⟩ := n
      obtain ⟨rfl, r, hr, hs⟩ := h
      refine List.nodup_cons.mpr ⟨fun ha => ?_, ih hs⟩
      -- a second visit would start a suffix as long as the whole chain
      obtain ⟨⟨b, w⟩, hb, rfl⟩ := List.mem_map.mp ha
      obtain ⟨xs, ys, rfl⟩ := List.append_of_mem hb
      have hwhole : Seg link (some b) ([] ++ (b, v) :: (xs ++ (b, w) :: ys)) none :=
        ⟨rfl, r, hr, hs⟩
      have hsuffix := congrArg List.length (hwhole.suffix_unique hs)
      simp at hsuffix
      omega

/-- The end of a segment moves when the link of its last node does. -/
theorem Seg.retarget {q' : Option κ} (h : Seg link p xs q) (hnd : (addrs xs).Nodup)
    (hl : ∀ a ∈ addrs xs, last xs ≠ some a → link' a = link a)
    (hlast : ∀ a v, xs.getLast? = some (a, v) → link' a = some (q', v)) :
    Seg link' (first xs q') xs q' := by
  rcases List.eq_nil_or_concat xs with rfl | ⟨init, ⟨b, w⟩, rfl⟩
  · exact rfl
  · simp only [List.concat_eq_append] at *
    obtain ⟨r, hinit, rfl, r', hb, -⟩ := seg_append.mp h
    have hne : ∀ a ∈ addrs init, a ≠ b := by
      rintro a ha rfl
      simp only [addrs_append, addrs_cons, addrs_nil] at hnd
      exact List.disjoint_of_nodup_append hnd ha (List.mem_singleton_self _)
    refine seg_append.mpr ⟨some b, ?_, rfl, q', hlast b w (by simp), rfl⟩
    have hframe : Seg link' p init (some b) := hinit.frame fun a ha =>
      hl a (by simp [ha]) (by simpa using (hne a ha).symm)
    simpa [hframe.start] using hframe

/-- The middle of a chain is replaced: the last node before it is linked to the new
middle, the new middle leads on to the old rest, and the rest is untouched. -/
theorem Seg.splice (mid mid' : List (κ × ν)) (h : Seg link p (xs ++ (mid ++ ys)) none)
    (hl : ∀ a ∈ addrs xs, last xs ≠ some a → link' a = link a)
    (hlast : ∀ a v, xs.getLast? = some (a, v) → link' a = some (first (mid' ++ ys) none, v))
    (hmid : Seg link' (first (mid' ++ ys) none) mid' (first ys none))
    (hys : ∀ a ∈ addrs ys, link' a = link a) :
    Seg link' (first (xs ++ (mid' ++ ys)) none) (xs ++ (mid' ++ ys)) none := by
  have hnd : (addrs xs).Nodup := by
    have hnd := h.nodup
    rw [addrs_append] at hnd
    exact hnd.of_append_left
  obtain ⟨r, hx, hrest⟩ := seg_append.mp h
  obtain ⟨r', -, hy⟩ := seg_append.mp hrest
  rw [first_append]
  refine seg_append.mpr ⟨_, hx.retarget hnd hl hlast, seg_append.mpr ⟨_, hmid, ?_⟩⟩
  have hframe : Seg link' r' ys none := hy.frame hys
  rwa [hframe.start] at hframe

end Seg

/-! ### Chains that share out a heap

That chains are disjoint says less than that they share out the heap: with `Partition`, an
address that is on no chain is not allocated, so nothing is leaked. -/

section Partition

variable {ι : Type} {link link' : κ → Option (Option κ × ν)} {ns : ι → List (κ × ν)}

/-- Every chain is linked and ends in null, and every allocated address is on exactly
one chain. -/
structure Partition (link : κ → Option (Option κ × ν)) (ns : ι → List (κ × ν)) : Prop where
  seg : ∀ i, Seg link (first (ns i) none) (ns i) none
  owner : ∀ a, link a ≠ none → ∃ i, a ∈ addrs (ns i)
  unique : ∀ i j a, a ∈ addrs (ns i) → a ∈ addrs (ns j) → i = j

/-- An empty heap is shared out by empty chains. -/
theorem Partition.empty (hlink : ∀ a, link a = none) (hns : ∀ i, ns i = []) :
    Partition link ns where
  seg i := by simp [hns i]
  owner a ha := absurd (hlink a) ha
  unique i j a ha := by simp [hns i] at ha

theorem Partition.live (h : Partition link ns) {i : ι} {a : κ} (ha : a ∈ addrs (ns i)) :
    link a ≠ none :=
  (h.seg i).link_ne_none ha

/-- **Rewriting one chain.** The new chain uses addresses of the old one and fresh
ones; what it gives up is freed; everything else stays. -/
theorem Partition.update [DecidableEq ι] (h : Partition link ns) (i : ι) {ms : List (κ × ν)}
    (hseg : Seg link' (first ms none) ms none)
    (hframe : ∀ a, a ∉ addrs (ns i) → a ∉ addrs ms → link' a = link a)
    (hnew : ∀ a ∈ addrs ms, a ∈ addrs (ns i) ∨ link a = none)
    (hgone : ∀ a ∈ addrs (ns i), a ∉ addrs ms → link' a = none) :
    Partition link' (Function.update ns i ms) := by
  -- an address of another chain is on neither version of this one
  have hother : ∀ j a, j ≠ i → a ∈ addrs (ns j) → a ∉ addrs (ns i) ∧ a ∉ addrs ms := by
    intro j a hj ha
    have hold : a ∉ addrs (ns i) := fun ha' => hj (h.unique j i a ha ha')
    exact ⟨hold, fun ha' => (hnew a ha').elim hold (h.live ha)⟩
  constructor
  · intro j
    by_cases hj : j = i
    · subst hj; simpa using hseg
    · rw [Function.update_of_ne hj]
      exact (h.seg j).frame fun a ha => hframe a (hother j a hj ha).1 (hother j a hj ha).2
  · intro a ha
    by_cases hms : a ∈ addrs ms
    · exact ⟨i, by simpa using hms⟩
    · have hold : a ∉ addrs (ns i) := fun hold => ha (hgone a hold hms)
      obtain ⟨j, hj⟩ := h.owner a (hframe a hold hms ▸ ha)
      have hji : j ≠ i := by rintro rfl; exact hold hj
      exact ⟨j, by rwa [Function.update_of_ne hji]⟩
  · intro j k a hj hk
    by_cases hji : j = i <;> by_cases hki : k = i
    · rw [hji, hki]
    · subst hji
      rw [Function.update_self] at hj
      rw [Function.update_of_ne hki] at hk
      exact absurd hj (hother k a hki hk).2
    · subst hki
      rw [Function.update_self] at hk
      rw [Function.update_of_ne hji] at hj
      exact absurd hk (hother j a hji hj).2
    · rw [Function.update_of_ne hji] at hj
      rw [Function.update_of_ne hki] at hk
      exact h.unique j k a hj hk

/-- **Chains change hands.** Renaming the owners leaves the heap shared out. -/
theorem Partition.permute (h : Partition link ns) (σ : Equiv.Perm ι) :
    Partition link (ns ∘ σ) where
  seg i := h.seg (σ i)
  owner a ha := by
    obtain ⟨i, hi⟩ := h.owner a ha
    exact ⟨σ.symm i, by simpa using hi⟩
  unique i j a hi hj := σ.injective (h.unique (σ i) (σ j) a hi hj)

end Partition

/-! ### Walking a chain

The links determine the chain: whoever follows them from the start with enough rounds has read
it. -/

/-- Follow the links from `p` for at most `n` nodes. -/
def walk (link : κ → Option (Option κ × ν)) : Nat → Option κ → List (κ × ν)
  | 0, _ => []
  | _ + 1, none => []
  | n + 1, some a =>
    match link a with
    | none => []
    | some (r, v) => (a, v) :: walk link n r

/-- A walk of a chain that ends in null returns the chain. -/
theorem Seg.walk_eq {link : κ → Option (Option κ × ν)} {p : Option κ} {ns : List (κ × ν)}
    (h : Seg link p ns none) {n : Nat} (hn : ns.length < n) : walk link n p = ns := by
  induction ns generalizing p n with
  | nil =>
      obtain rfl : p = none := h
      obtain ⟨n, rfl⟩ := Nat.exists_eq_succ_of_ne_zero (by omega : n ≠ 0)
      rfl
  | cons m ns ih =>
      obtain ⟨a, v⟩ := m
      obtain ⟨rfl, r, hr, hs⟩ := h
      obtain ⟨n, rfl⟩ := Nat.exists_eq_succ_of_ne_zero (by omega : n ≠ 0)
      have := ih hs (n := n) (by simpa using hn)
      simp [walk, hr, this]

end Chain
