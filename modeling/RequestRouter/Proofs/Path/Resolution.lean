/-
  RequestRouter/Proofs/Path/Resolution.lean
  =========================================
  **What is left when dot segments are resolved.**

  Parents either take back a name before them or climb above the place where the segments start.  As
  many climb as some front part of the segments has more parents than names, and what is left are
  these parents in front and behind them what a file system would make of the segments, for which
  the parent of the root is the root (`exists_resolve_eq`).  Segments that are resolved in part
  beforehand come to the same as if they are resolved at once (`resolve_append_resolve`).
-/
import RequestRouter.Path
import Mathlib.Data.List.Basic
import Mathlib.Data.List.Induction
import Mathlib.Data.List.Infix

namespace RequestRouter.Path

/-! ### Names and parents -/

/-- A segment that stands for neither the directory it is in nor the parent. -/
def IsName (s : Segment) : Prop := s ≠ dot ∧ s ≠ dotDot

instance : DecidablePred IsName := fun _ => inferInstanceAs (Decidable (_ ∧ _))

def names (segs : List Segment) : Nat := segs.countP (IsName ·)

def parents (segs : List Segment) : Nat := segs.count dotDot

/-- The segments climb `n` steps above where they start: some front part has so many more parents
    than names, and none has more. -/
structure Climbs (segs : List Segment) (n : Nat) : Prop where
  reached : ∃ front, front <+: segs ∧ parents front = names front + n
  most : ∀ front, front <+: segs → parents front ≤ names front + n

/-- The segments never climb above where they start: no front part has more parents than names. -/
def Stays (segs : List Segment) : Prop := ∀ front, front <+: segs → parents front ≤ names front

instance : DecidablePred Stays := fun segs =>
  decidable_of_iff (∀ front ∈ segs.inits, parents front ≤ names front) <|
    forall_congr' fun _ => imp_congr_left (List.mem_inits _ _)

/-- Every parent takes back a name before it, and every name is taken back. -/
def Cancels (segs : List Segment) : Prop := Stays segs ∧ names segs = parents segs

instance : DecidablePred Cancels := fun _ => inferInstanceAs (Decidable (_ ∧ _))

variable {segs kept stack below : List Segment} {s top : Segment} {m n : Nat}

theorem segment_cases (s : Segment) : s = dot ∨ s = dotDot ∨ IsName s := by
  by_cases hdot : s = dot
  · exact .inl hdot
  · by_cases hparent : s = dotDot
    · exact .inr (.inl hparent)
    · exact .inr (.inr ⟨hdot, hparent⟩)

@[simp] theorem names_concat_dot : names (segs ++ [dot]) = names segs := by
  simp [names, IsName]

@[simp] theorem parents_concat_dot : parents (segs ++ [dot]) = parents segs := by
  simp [parents, dot, dotDot]

@[simp] theorem names_concat_dotDot : names (segs ++ [dotDot]) = names segs := by
  simp [names, IsName]

@[simp] theorem parents_concat_dotDot : parents (segs ++ [dotDot]) = parents segs + 1 := by
  simp [parents]

theorem IsName.names_concat (h : IsName s) : names (segs ++ [s]) = names segs + 1 := by
  simp [names, h]

theorem IsName.parents_concat (h : IsName s) : parents (segs ++ [s]) = parents segs := by
  simp [parents, h.2]

/-! ### Climbing -/

theorem Climbs.nil : Climbs [] 0 := by
  refine ⟨⟨[], List.prefix_rfl, rfl⟩, ?_⟩
  intro front hfront
  rw [List.prefix_nil.mp hfront]
  exact Nat.zero_le _

theorem Climbs.unique (hm : Climbs segs m) (hn : Climbs segs n) : m = n := by
  obtain ⟨front, hfront, hreached⟩ := hm.reached
  obtain ⟨front', hfront', hreached'⟩ := hn.reached
  have hle := hn.most front hfront
  have hle' := hm.most front' hfront'
  omega

theorem stays_iff : Stays segs ↔ Climbs segs 0 :=
  ⟨fun h => ⟨⟨[], List.nil_prefix, rfl⟩, h⟩, fun h => h.most⟩

/-- Climbing is told by the front parts before the last segment unless the whole climbs higher. -/
theorem Climbs.concat (h : Climbs segs n)
    (hle : parents (segs ++ [s]) ≤ names (segs ++ [s]) + n) : Climbs (segs ++ [s]) n := by
  obtain ⟨front, hfront, hreached⟩ := h.reached
  refine ⟨⟨front, hfront.trans (List.prefix_append segs [s]), hreached⟩, ?_⟩
  intro front' hfront'
  rcases List.prefix_concat_iff.mp hfront' with rfl | hbefore
  · exact hle
  · exact h.most front' hbefore

theorem Climbs.concat_higher (h : Climbs segs n)
    (heq : parents (segs ++ [s]) = names (segs ++ [s]) + (n + 1)) :
    Climbs (segs ++ [s]) (n + 1) := by
  refine ⟨⟨segs ++ [s], List.prefix_rfl, heq⟩, ?_⟩
  intro front hfront
  rcases List.prefix_concat_iff.mp hfront with rfl | hbefore
  · exact Nat.le_of_eq heq
  · exact Nat.le_succ_of_le (h.most front hbefore)

/-! ### One segment onto the stack -/

theorem push_dot (stack : List Segment) : push stack dot = stack := if_pos rfl

theorem push_of_isName (h : IsName s) (stack : List Segment) : push stack s = s :: stack :=
  (if_neg h.1).trans (if_neg h.2)

/-- A parent takes back the name before it. -/
theorem push_dotDot_name (h : IsName top) (below : List Segment) :
    push (top :: below) dotDot = below :=
  if_neg h.2

/-- With nothing but parents before it, a parent stays. -/
theorem push_dotDot_replicate (n : Nat) :
    push (List.replicate n dotDot) dotDot = List.replicate (n + 1) dotDot := by
  cases n <;> rfl

/-! ### The parent of the root -/

/-- One segment onto the stack as a file system has it: the parent of the root is the root. -/
def pushRooted (stack : List Segment) (s : Segment) : List Segment :=
  if s = dot then stack
  else if s = dotDot then stack.tail
  else s :: stack

/-- The segments as a file system resolves them, from the root. -/
def canonical (segments : List Segment) : List Segment := (segments.foldl pushRooted []).reverse

theorem pushRooted_dot (stack : List Segment) : pushRooted stack dot = stack := if_pos rfl

theorem pushRooted_dotDot (stack : List Segment) : pushRooted stack dotDot = stack.tail := rfl

theorem pushRooted_of_isName (h : IsName s) (stack : List Segment) :
    pushRooted stack s = s :: stack := by
  rw [pushRooted, if_neg h.1, if_neg h.2]

/-! ### The stacks after some segments -/

/-- How both stacks stand after the segments: the file system's holds names, and the other one the
    same names upon the parents that climbed. -/
structure Stands (segs kept : List Segment) (climbed : Nat) : Prop where
  stack : segs.foldl push [] = kept ++ List.replicate climbed dotDot
  rooted : segs.foldl pushRooted [] = kept
  named : ∀ s ∈ kept, IsName s
  balance : names segs + climbed = parents segs + kept.length
  climbs : Climbs segs climbed

theorem Stands.nil : Stands [] [] 0 := ⟨rfl, rfl, List.forall_mem_nil _, rfl, .nil⟩

theorem Stands.dot (h : Stands segs kept n) : Stands (segs ++ [dot]) kept n := by
  refine ⟨?_, ?_, h.named, ?_, h.climbs.concat ?_⟩
  · rw [List.foldl_concat, push_dot, h.stack]
  · rw [List.foldl_concat, pushRooted_dot, h.rooted]
  · simpa using h.balance
  · simpa using h.climbs.most segs List.prefix_rfl

theorem Stands.name (h : Stands segs kept n) (hs : IsName s) :
    Stands (segs ++ [s]) (s :: kept) n := by
  have hbalance := h.balance
  have hmost := h.climbs.most segs List.prefix_rfl
  refine ⟨?_, ?_, List.forall_mem_cons.mpr ⟨hs, h.named⟩, ?_, h.climbs.concat ?_⟩
  · rw [List.foldl_concat, push_of_isName hs, h.stack, List.cons_append]
  · rw [List.foldl_concat, pushRooted_of_isName hs, h.rooted]
  · rw [hs.names_concat, hs.parents_concat, List.length_cons]
    omega
  · rw [hs.names_concat, hs.parents_concat]
    omega

/-- A parent behind names takes the last of them back. -/
theorem Stands.back (h : Stands segs (top :: kept) n) : Stands (segs ++ [dotDot]) kept n := by
  obtain ⟨htop, hkept⟩ := List.forall_mem_cons.mp h.named
  have hbalance := h.balance
  rw [List.length_cons] at hbalance
  refine ⟨?_, ?_, hkept, ?_, h.climbs.concat ?_⟩
  · rw [List.foldl_concat, h.stack, List.cons_append, push_dotDot_name htop]
  · rw [List.foldl_concat, h.rooted, pushRooted_dotDot, List.tail_cons]
  · rw [names_concat_dotDot, parents_concat_dotDot]
    omega
  · rw [names_concat_dotDot, parents_concat_dotDot]
    omega

/-- A parent with no name before it climbs. -/
theorem Stands.climb (h : Stands segs [] n) : Stands (segs ++ [dotDot]) [] (n + 1) := by
  have hbalance := h.balance
  rw [List.length_nil] at hbalance
  refine ⟨?_, ?_, h.named, ?_, h.climbs.concat_higher ?_⟩
  · rw [List.foldl_concat, h.stack, List.nil_append, push_dotDot_replicate, List.nil_append]
  · rw [List.foldl_concat, h.rooted, pushRooted_dotDot, List.tail_nil]
  · rw [names_concat_dotDot, parents_concat_dotDot, List.length_nil]
    omega
  · rw [names_concat_dotDot, parents_concat_dotDot]
    omega

theorem Stands.concat (h : Stands segs kept n) (s : Segment) :
    ∃ kept' n', Stands (segs ++ [s]) kept' n' := by
  rcases segment_cases s with rfl | rfl | hs
  · exact ⟨kept, n, h.dot⟩
  · cases kept with
    | nil => exact ⟨[], n + 1, h.climb⟩
    | cons top kept => exact ⟨kept, n, h.back⟩
  · exact ⟨s :: kept, n, h.name hs⟩

theorem exists_stands (segs : List Segment) : ∃ kept n, Stands segs kept n := by
  induction segs using List.reverseRecOn with
  | nil => exact ⟨[], 0, .nil⟩
  | append_singleton segs s ih =>
    obtain ⟨kept, n, h⟩ := ih
    exact h.concat s

/-! ### What is left -/

theorem Stands.resolve_eq (h : Stands segs kept n) :
    resolve segs = List.replicate n dotDot ++ canonical segs := by
  rw [resolve, canonical, h.stack, h.rooted, List.reverse_append, List.reverse_replicate]

/-- **The parents that climb are left in front**, and behind them what a file system leaves. -/
theorem exists_resolve_eq (segs : List Segment) :
    ∃ n, Climbs segs n ∧ resolve segs = List.replicate n dotDot ++ canonical segs := by
  obtain ⟨kept, n, h⟩ := exists_stands segs
  exact ⟨n, h.climbs, h.resolve_eq⟩

theorem isName_of_mem_canonical (h : s ∈ canonical segs) : IsName s := by
  obtain ⟨kept, n, hstands⟩ := exists_stands segs
  rw [canonical, hstands.rooted, List.mem_reverse] at h
  exact hstands.named s h

theorem dotDot_mem_resolve_iff : dotDot ∈ resolve segs ↔ ¬ Stays segs := by
  obtain ⟨n, hclimbs, hresolve⟩ := exists_resolve_eq segs
  rw [hresolve, List.mem_append, List.mem_replicate, stays_iff]
  constructor
  · rintro (⟨hne, -⟩ | hmem) hnone
    · exact hne (hclimbs.unique hnone)
    · exact (isName_of_mem_canonical hmem).2 rfl
  · intro hsome
    refine .inl ⟨?_, rfl⟩
    rintro rfl
    exact hsome hclimbs

theorem Stays.resolve_eq (h : Stays segs) : resolve segs = canonical segs := by
  obtain ⟨n, hclimbs, hresolve⟩ := exists_resolve_eq segs
  rw [hresolve, hclimbs.unique (stays_iff.mp h)]
  rfl

/-- Nothing is left of segments that cancel, and of no others. -/
theorem resolve_eq_nil_iff : resolve segs = [] ↔ Cancels segs := by
  obtain ⟨kept, n, h⟩ := exists_stands segs
  have hbalance := h.balance
  have hleft : resolve segs = [] ↔ n = 0 ∧ kept = [] := by
    rw [h.resolve_eq, canonical, h.rooted]
    simp
  rw [hleft]
  constructor
  · rintro ⟨rfl, rfl⟩
    exact ⟨stays_iff.mpr h.climbs, by simpa using hbalance⟩
  · rintro ⟨hstays, hnames⟩
    obtain rfl := h.climbs.unique (stays_iff.mp hstays)
    refine ⟨rfl, List.length_eq_zero_iff.mp ?_⟩
    omega

theorem mem_of_mem_push (h : s ∈ push stack top) : s ∈ stack ∨ s = top := by
  rcases segment_cases top with rfl | rfl | htop
  · rw [push_dot] at h
    exact .inl h
  · cases stack with
    | nil => exact .inr (List.mem_singleton.mp h)
    | cons t below =>
      change s ∈ if t = dotDot then dotDot :: t :: below else below at h
      split at h
      · exact (List.mem_cons.mp h).symm
      · exact .inl (List.mem_cons_of_mem _ h)
  · rw [push_of_isName htop] at h
    exact (List.mem_cons.mp h).symm

/-- Resolution makes no segments. -/
theorem mem_of_mem_resolve (h : s ∈ resolve segs) : s ∈ segs := by
  rw [resolve, List.mem_reverse] at h
  induction segs using List.reverseRecOn with
  | nil => cases h
  | append_singleton segs t ih =>
    rw [List.foldl_concat] at h
    rw [List.mem_append, List.mem_singleton]
    exact (mem_of_mem_push h).imp_left ih

/-! ### Resolving in parts -/

/-- Resolved segments have the same effect on a stack as the segments themselves. -/
theorem foldl_push_resolve (stack segs : List Segment) :
    (resolve segs).foldl push stack = segs.foldl push stack := by
  induction segs using List.reverseRecOn with
  | nil => rfl
  | append_singleton segs s ih =>
    obtain ⟨kept, n, h⟩ := exists_stands segs
    rw [List.foldl_concat, ← ih]
    have hbefore : resolve segs = (kept ++ List.replicate n dotDot).reverse := by
      rw [resolve, h.stack]
    have hafter : resolve (segs ++ [s]) = (push (kept ++ List.replicate n dotDot) s).reverse := by
      rw [resolve, List.foldl_concat, h.stack]
    rw [hbefore, hafter]
    rcases segment_cases s with rfl | rfl | hs
    · rw [push_dot, push_dot]
    · cases kept with
      | nil =>
        rw [List.nil_append, push_dotDot_replicate, List.replicate_succ, List.reverse_cons,
          List.foldl_concat]
      | cons top kept =>
        -- the name that the parent takes back is the last one of the resolved segments
        have htop : IsName top := h.named top List.mem_cons_self
        rw [List.cons_append, push_dotDot_name htop, List.reverse_cons, List.foldl_concat,
          push_of_isName htop, push_dotDot_name htop]
    · rw [push_of_isName hs, List.reverse_cons, List.foldl_concat]

theorem resolve_append_resolve (segs segs' : List Segment) :
    resolve (segs ++ resolve segs') = resolve (segs ++ segs') := by
  rw [resolve, List.foldl_append, foldl_push_resolve, ← List.foldl_append]
  rfl

theorem resolve_resolve_append (segs segs' : List Segment) :
    resolve (resolve segs ++ segs') = resolve (segs ++ segs') := by
  rw [resolve, List.foldl_append, foldl_push_resolve, ← List.foldl_append]
  rfl

/-- Names behind parents are resolved. -/
theorem resolve_of_leading (n : Nat) (h : ∀ s ∈ kept, IsName s) :
    resolve (List.replicate n dotDot ++ kept) = List.replicate n dotDot ++ kept := by
  have hparents : (List.replicate n dotDot).foldl push [] = List.replicate n dotDot := by
    induction n with
    | zero => rfl
    | succ n ih =>
      rw [List.replicate_succ', List.foldl_concat, ih, push_dotDot_replicate, List.replicate_succ']
  have hnames : ∀ stack, kept.foldl push stack = kept.reverse ++ stack := by
    induction kept with
    | nil => exact fun _ => rfl
    | cons s kept ih =>
      intro stack
      obtain ⟨hs, hkept⟩ := List.forall_mem_cons.mp h
      rw [List.foldl_cons, push_of_isName hs, ih hkept, List.reverse_cons, List.append_assoc]
      rfl
  rw [resolve, List.foldl_append, hparents, hnames, List.reverse_append, List.reverse_reverse,
    List.reverse_replicate]

end RequestRouter.Path
