/-
  RequestRouter/Proofs/Path/Join.lean
  ===================================
  **Prefixes compose associatively, up to a slash at the end.**

  A composed path starts with a slash and has the segments of both parts resolved at once
  (`segments_joinChars`).  As segments resolved in part beforehand come to the same, it makes no
  difference to the segments which prefix is composed first.  It makes one to the slash at the end:
  a path that cancels when it is put behind its own prefix is composed to the root, whose slash is
  then kept at the end of the whole, while behind both prefixes together it leaves none
  (`join_join`).
-/
import RequestRouter.Proofs.Path.Normal

namespace RequestRouter.Path

open RequestRouter.Text

variable {path base : List Char}

/-! ### Rooted texts -/

/-- A rooted text is a slash and a text with the same segments. -/
theorem exists_rooted_eq (path : List Char) :
    ∃ rest, rooted path = '/' :: rest ∧ solidSegments rest = solidSegments path := by
  unfold rooted
  split
  · next hhead =>
    obtain ⟨rest, rfl⟩ := List.head?_eq_some_iff.mp hhead
    exact ⟨rest, rfl, (solidSegments_slash_cons rest).symm⟩
  · exact ⟨path, rfl, rfl⟩

theorem rooted_of_head? (h : path.head? = some '/') : rooted path = path := if_pos h

theorem solidSegments_rooted_append (base path : List Char) :
    solidSegments (rooted base ++ rooted path) = solidSegments base ++ solidSegments path := by
  obtain ⟨front, hfront, hbase⟩ := exists_rooted_eq base
  obtain ⟨rest, hrest, hpath⟩ := exists_rooted_eq path
  rw [hrest, solidSegments_append_slash, hpath, hfront, solidSegments_slash_cons, hbase]

/-! ### A composed path -/

theorem segments_joinChars (base path : List Char) :
    segments (joinChars base path) = resolve (solidSegments base ++ solidSegments path) := by
  rw [joinChars, segments_normalizeChars, solidSegments_rooted_append]

theorem head?_rooted_append (base path : List Char) :
    (rooted base ++ rooted path).head? = some '/' := by
  rw [List.head?_append, head?_rooted]
  rfl

theorem head?_joinChars (base path : List Char) : (joinChars base path).head? = some '/' :=
  (head?_normalizeChars _).mpr (.inl (head?_rooted_append base path))

/-- A composed path ends with a slash if its second part does, or if it is the root. -/
theorem getLast?_joinChars (base path : List Char) :
    (joinChars base path).getLast? = some '/' ↔ (rooted path).getLast? = some '/' ∨
      resolve (solidSegments base ++ solidSegments path) = [] := by
  obtain ⟨rest, hrest, -⟩ := exists_rooted_eq path
  have hlast : (rooted base ++ rooted path).getLast? = (rooted path).getLast? := by
    rw [hrest]
    exact List.getLast?_append_of_ne_nil _ (List.cons_ne_nil _ _)
  rw [joinChars, getLast?_normalizeChars, solidSegments_rooted_append, head?_rooted_append, hlast]
  simp

theorem isNormal_joinChars (base path : List Char) : IsNormal (joinChars base path) :=
  isNormal_normalizeChars _

theorem solidSegments_joinChars (base path : List Char) :
    solidSegments (joinChars base path) = resolve (solidSegments base ++ solidSegments path) := by
  rw [(isNormal_joinChars base path).solidSegments_eq, segments_joinChars]

theorem mem_of_mem_joinChars {c : Char} (h : c ∈ joinChars base path) :
    c = '/' ∨ c ∈ base ∨ c ∈ path := by
  have hrooted : ∀ {text : List Char}, c ∈ rooted text → c = '/' ∨ c ∈ text := by
    intro text hc
    unfold rooted at hc
    split at hc
    · exact .inr hc
    · exact List.mem_cons.mp hc
  rcases mem_of_mem_normalizeChars h with hslash | hmem
  · exact .inl hslash
  · rcases List.mem_append.mp hmem with hbase | hpath
    · exact (hrooted hbase).imp_right .inl
    · exact (hrooted hpath).imp_right .inr

/-! ### Composing twice -/

theorem segments_join_left (a b c : List Char) :
    segments (joinChars (joinChars a b) c) =
      resolve (solidSegments a ++ solidSegments b ++ solidSegments c) := by
  rw [segments_joinChars, solidSegments_joinChars, resolve_resolve_append]

theorem segments_join_right (a b c : List Char) :
    segments (joinChars a (joinChars b c)) =
      resolve (solidSegments a ++ solidSegments b ++ solidSegments c) := by
  rw [segments_joinChars, solidSegments_joinChars, resolve_append_resolve, List.append_assoc]

/-- What ends with a slash behind both prefixes together, does so behind each in turn. -/
theorem getLast?_join_right {a b c : List Char}
    (h : (joinChars (joinChars a b) c).getLast? = some '/') :
    (joinChars a (joinChars b c)).getLast? = some '/' := by
  rw [getLast?_joinChars] at h ⊢
  rcases h with hlast | hnil
  · rw [rooted_of_head? (head?_joinChars b c)]
    exact .inl ((getLast?_joinChars b c).mpr (.inl hlast))
  · right
    rw [← segments_joinChars, segments_join_right, ← segments_join_left, segments_joinChars, hnil]

/-- A rooted path without repeated slashes is its segments, with a slash behind them or not. -/
theorem exists_written_rooted (hhead : path.head? = some '/') (h : ¬ ['/', '/'] <:+: path) :
    ∃ isClosed, written true (segments path) isClosed = path ∧
      (segments path = [] → isClosed = false) ∧
      (path.getLast? = some '/' ↔ isClosed = true ∨ segments path = []) := by
  obtain ⟨isRooted, segs, isClosed, hsolid, hends, rfl⟩ := exists_written h
  have hrooted : isRooted = true := by
    rcases (head?_written hsolid).mp hhead with hrooted | ⟨hnil, hclosed⟩
    · exact hrooted
    · rw [hends hnil] at hclosed
      exact absurd hclosed Bool.false_ne_true
  rw [segments_written hsolid, getLast?_written hsolid, hrooted]
  exact ⟨isClosed, rfl, hends, by simp⟩

/-- Two rooted paths with the same segments are the same up to a slash at the end. -/
theorem eq_or_eq_append_slash {path path' : List Char} (hhead : path.head? = some '/')
    (hhead' : path'.head? = some '/') (h : ¬ ['/', '/'] <:+: path) (h' : ¬ ['/', '/'] <:+: path')
    (hsegments : segments path' = segments path)
    (hlast : path.getLast? = some '/' → path'.getLast? = some '/') :
    path' = path ∨ path' = path ++ ['/'] := by
  obtain ⟨isClosed, hpath, hopen, hend⟩ := exists_written_rooted hhead h
  obtain ⟨isClosed', hpath', -, hend'⟩ := exists_written_rooted hhead' h'
  rw [hsegments] at hpath' hend'
  cases isClosed with
  | true =>
    rcases hend'.mp (hlast (hend.mpr (.inl rfl))) with rfl | hnil
    · exact .inl (hpath'.symm.trans hpath)
    · exact absurd (hopen hnil).symm Bool.false_ne_true
  | false =>
    cases isClosed' with
    | false => exact .inl (hpath'.symm.trans hpath)
    | true =>
      right
      rw [← hpath', written_true, hpath]

theorem toList_join (base path : String) : (join base path).toList = joinChars base.toList path.toList :=
  String.toList_ofList

/-- **Prefixes compose associatively, up to a slash at the end.**  Whichever prefix is composed
    first, the path starts with a slash and has the segments of all three parts resolved at once.
    If the path is composed with its own prefix first, it may have one slash more at the end. -/
theorem join_join (a b c : String) :
    (join (join a b) c).toList.head? = some '/' ∧ (join a (join b c)).toList.head? = some '/' ∧
      segments (join (join a b) c).toList =
        resolve (solidSegments a.toList ++ solidSegments b.toList ++ solidSegments c.toList) ∧
      segments (join a (join b c)).toList = segments (join (join a b) c).toList ∧
      (join a (join b c) = join (join a b) c ∨ join a (join b c) = join (join a b) c ++ "/") := by
  simp only [toList_join]
  have hsegments : segments (joinChars a.toList (joinChars b.toList c.toList)) =
      segments (joinChars (joinChars a.toList b.toList) c.toList) := by
    rw [segments_join_left, segments_join_right]
  refine ⟨head?_joinChars _ _, head?_joinChars _ _, segments_join_left _ _ _, hsegments, ?_⟩
  have htext := eq_or_eq_append_slash (head?_joinChars _ _) (head?_joinChars _ _)
    (isNormal_joinChars _ _).single (isNormal_joinChars _ _).single hsegments getLast?_join_right
  refine htext.imp ?_ ?_
  · intro heq
    apply String.toList_injective
    rw [toList_join, toList_join, toList_join, toList_join, heq]
  · intro heq
    apply String.toList_injective
    rw [String.toList_append, toList_join, toList_join, toList_join, toList_join, heq]
    rfl

/-- Behind both prefixes the last part leaves nothing; composed with its own prefix it is the
    root. -/
example : join (join "a" "") "." = "/a" ∧ join "a" (join "" ".") = "/a/" := by decide

end RequestRouter.Path
