/-!
# Paths

A path is kept as it was written. What it means is read off its components: repeated slashes, a
slash at the end and every `.` but a leading one say nothing, so two paths are the same if their
components are. `join` and `parent?` work on the text and never look at a file system; in
components, `join` puts one list behind the other and `parent?` drops the last one.
-/

namespace Vendoring

/-- A path as it was written. -/
structure Path where
  text : String
deriving DecidableEq, Inhabited

/-- What a path is made of: the root, the directory it starts from when that is written, the
directory above, or a name. -/
inductive Component where
  | root
  | current
  | parent
  | name (name : List Char)
deriving DecidableEq

namespace Path

/-- The pieces of a text between separators, the empty ones included. -/
def splitAt (separator : Char) : List Char → List (List Char)
  | [] => [[]]
  | c :: cs =>
    if c = separator then [] :: splitAt separator cs
    else match splitAt separator cs with
      | [] => [[c]]
      | piece :: pieces => (c :: piece) :: pieces

/-- The non-empty pieces between slashes. -/
def piecesOf (s : List Char) : List (List Char) :=
  (splitAt '/' s).filter (· ≠ [])

/-- What a piece behind the first place stands for; a `.` there says nothing. -/
def pieceComponent? (piece : List Char) : Option Component :=
  if piece = ['.'] then none
  else if piece = ['.', '.'] then some .parent
  else some (.name piece)

/-- The components of a path's text. -/
def componentsOf (s : List Char) : List Component :=
  let inner := (piecesOf s).filterMap pieceComponent?
  match s with
  | '/' :: _ => .root :: inner
  | _ => if (piecesOf s).head? = some ['.'] then .current :: inner else inner

/-- The non-empty pieces of the path between slashes. -/
def pieces (p : Path) : List (List Char) :=
  piecesOf p.text.toList

/-- The components of the path. -/
def components (p : Path) : List Component :=
  componentsOf p.text.toList

/-- Two paths are the same if their components are. -/
def Same (p q : Path) : Prop :=
  p.components = q.components

instance (p q : Path) : Decidable (p.Same q) :=
  inferInstanceAs (Decidable (_ = _))

/-- Whether the path starts at the root. -/
def isAbsolute (p : Path) : Bool :=
  p.text.toList.head? == some '/'

/-- Whether the path is written with a slash at its end. -/
def endsInSlash (p : Path) : Bool :=
  p.text.toList.getLast? == some '/'

/-- The second path read from the first one. An absolute path stays as it is. -/
def join (p q : Path) : Path :=
  if q.isAbsolute then q
  else if p.text.isEmpty || p.endsInSlash then ⟨p.text ++ q.text⟩
  else ⟨p.text ++ "/" ++ q.text⟩

/-- The last name of the path, unless it ends in the root or in a directory reference. -/
def fileName? (p : Path) : Option (List Char) :=
  match p.components.getLast? with
  | some (.name name) => some name
  | _ => none

/-- A text written backwards, without the slashes and the `.` pieces at its end. -/
def trimReversed (r : List Char) : List Char :=
  let piece := r.takeWhile (· ≠ '/')
  if piece = [] ∨ piece = ['.'] then
    match _h : r.dropWhile (· ≠ '/') with
    | [] => []
    | _ :: rest => trimReversed rest
  else r
termination_by r.length
decreasing_by
  have h' := (List.dropWhile_sublist (l := r) (· ≠ '/')).length_le
  rw [_h] at h'
  simp only [List.length_cons] at h'
  omega

/-- The text of a path split behind its root or behind the `.` it starts with. -/
def splitHead (s : List Char) : List Char × List Char :=
  match s with
  | '/' :: rest => (['/'], rest)
  | ['.'] => (['.'], [])
  | '.' :: '/' :: rest => (['.'], '/' :: rest)
  | _ => ([], s)

/-- The path without its last component. The root and the empty path have no parent. -/
def parent? (p : Path) : Option Path :=
  let (head, body) := splitHead p.text.toList
  match trimReversed body.reverse with
  | [] => if head = ['.'] then some ⟨""⟩ else none
  | last :: rest =>
    let above := ((last :: rest).dropWhile (· ≠ '/')).drop 1
    some ⟨String.ofList (head ++ (trimReversed above).reverse)⟩

/-- Splitting keeps the characters. -/
theorem length_splitHead (s : List Char) :
    (splitHead s).1.length + (splitHead s).2.length = s.length := by
  unfold splitHead
  split <;> simp <;> omega

/-- Trimming leaves no more characters. -/
theorem length_trimReversed (r : List Char) : (trimReversed r).length ≤ r.length := by
  induction h : r.length using Nat.strongRecOn generalizing r with
  | ind n ih =>
    have hdrop := (List.dropWhile_sublist (l := r) (· ≠ '/')).length_le
    rw [trimReversed]
    split
    · split
      · simp
      · rename_i rest hrest
        rw [hrest] at hdrop
        simp only [List.length_cons] at hdrop
        have := ih rest.length (by omega) rest rfl
        omega
    · omega

/-- A parent is written with fewer characters. -/
theorem length_of_parent? {p q : Path} (h : p.parent? = some q) :
    q.text.toList.length < p.text.toList.length := by
  have hhead := length_splitHead p.text.toList
  have htrim := length_trimReversed (splitHead p.text.toList).2.reverse
  simp only [parent?] at h
  split at h
  · split at h
    · rename_i hcurrent
      obtain rfl := Option.some.inj h
      simp only [hcurrent, List.length_singleton] at hhead
      simp
      omega
    · simp at h
  · rename_i last rest hbody
    rw [hbody] at htrim
    obtain rfl := Option.some.inj h
    have habove := length_trimReversed (((last :: rest).dropWhile (· ≠ '/')).drop 1)
    have hdrop := (List.dropWhile_sublist (l := last :: rest) (· ≠ '/')).length_le
    simp only [List.length_reverse, List.length_cons, List.length_drop] at htrim habove hdrop
    simp only [String.toList_ofList, List.length_append, List.length_reverse]
    by_cases hslash : ((last :: rest).dropWhile (· ≠ '/')).length = 0
    · omega
    · omega

/-- The path with every `.` component dropped, as a list of components. -/
def normalized (p : Path) : List Component :=
  p.components.filter (· ≠ .current)

/-- Whether the path is relative and never climbs. -/
def staysInside (p : Path) : Bool :=
  p.components.all fun
    | .name _ => true
    | .current => true
    | _ => false

/-- Whether the components end in the given ones. -/
def endsWith (p q : Path) : Bool :=
  q.components.isSuffixOf p.components

end Path

end Vendoring
