import Overlay.Proofs.Text
import Overlay.Store

/-!
# Names stay inside the store

Everything about the components of a path follows from one equation: a slash parts the bytes
before it from the bytes behind it (`Path.steps_slash`).  So going on from a path puts the
components of what follows behind those of the path, whether or not the path ends in a slash or
says anything at all (`Path.components_join`), and without a double dot among them normal forms
grow in the same way (`Path.normal_join`).  None of this asks whether the path is text.

A name is text, and no character but the slash has the byte of a slash in it, so the name may be
split before or after it is spelled (`Path.splitOn_spell`).  It is inward when it says something,
does not start at the root and never leads back (`Inward`).  A store finds a path for exactly the
inward names, and the path lies below the root by exactly the components of the name
(`Store.path_inward`).  The last check of a store, that the path did not get out, holds of every
path that comes so far.
-/

set_option autoImplicit false

namespace Overlay

/-! ## The components of a path -/

namespace Path

/-- The stretches between slashes that lead somewhere. -/
def steps (bytes : Bytes) : List Bytes := (bytes.splitOn slash).filter isStep

theorem steps_nil : steps [] = [] := rfl

/-- A slash parts the components before it from the ones behind it. -/
theorem steps_slash (front back : Bytes) :
    steps (front ++ slash :: back) = steps front ++ steps back := by
  rw [steps, List.splitOn_append_cons_self, List.filter_append]
  rfl

theorem steps_slash_end (front : Bytes) : steps (front ++ [slash]) = steps front := by
  rw [steps_slash, steps_nil, List.append_nil]

theorem components_eq_steps (path : Path) : path.components = steps path.bytes := rfl

theorem parent_mem_components (path : Path) :
    parent ∈ path.components ↔ parent ∈ path.pieces := by
  rw [components, List.mem_filter]
  exact and_iff_left rfl

/-! ## Going on from a path -/

variable {base next : Path}

theorem bytes_of_endsInSlash (ends : base.endsInSlash = true) :
    ∃ front, base.bytes = front ++ [slash] := by
  rw [endsInSlash, beq_iff_eq] at ends
  exact List.getLast?_eq_some_iff.mp ends

/-- Going on from a path puts the components of what follows behind those of the path. -/
theorem components_join (base : Path) (relative : next.isAbsolute = false) :
    (base.join next).components = base.components ++ next.components := by
  rw [join, relative, if_neg Bool.false_ne_true]
  simp only [components_eq_steps]
  by_cases nothing : base.bytes.isEmpty = true
  · rw [nothing, Bool.true_or, if_pos rfl, List.isEmpty_iff.mp nothing]
    rfl
  · by_cases ends : base.endsInSlash = true
    · obtain ⟨front, bytes⟩ := bytes_of_endsInSlash ends
      rw [ends, Bool.or_true, if_pos rfl, bytes, steps_slash_end, List.append_assoc]
      exact steps_slash front next.bytes
    · rw [if_neg (by rw [Bool.or_eq_true]; exact not_or.mpr ⟨nothing, ends⟩)]
      exact steps_slash base.bytes next.bytes

theorem isAbsolute_join (base : Path) (relative : next.isAbsolute = false) :
    (base.join next).isAbsolute = base.isAbsolute := by
  rw [join, relative, if_neg Bool.false_ne_true]
  by_cases nothing : base.bytes.isEmpty = true
  · have plain : base.isAbsolute = false := by rw [isAbsolute, List.isEmpty_iff.mp nothing]; rfl
    rw [nothing, Bool.true_or, if_pos rfl, List.isEmpty_iff.mp nothing, List.nil_append, plain]
    exact relative
  · have start (back : Bytes) : (base.bytes ++ back).head? = base.bytes.head? :=
      List.head?_append_of_ne_nil _ (mt List.isEmpty_iff.mpr nothing)
    simp only [isAbsolute]
    split <;> rw [start]

/-! ## Normal forms -/

/-- Components that never lead back are all kept. -/
theorem foldl_step {components : List Bytes} (onward : parent ∉ components)
    (names : List Bytes) : components.foldl Normal.step names = names ++ components := by
  induction components generalizing names with
  | nil => exact (List.append_nil names).symm
  | cons first rest ih =>
      obtain ⟨here, later⟩ := not_or.mp (mt List.mem_cons.mpr onward)
      rw [List.foldl_cons, ih later, Normal.step, if_neg (Ne.symm here), List.append_assoc]
      rfl

theorem normal_join (base : Path) (relative : next.isAbsolute = false)
    (onward : parent ∉ next.components) :
    (base.join next).normal =
      { base.normal with names := base.normal.names ++ next.components } := by
  rw [normal, isAbsolute_join base relative, components_join base relative, List.foldl_append,
    foldl_step onward]
  rfl

theorem startsWith_append (base : Normal) (names : List Bytes) :
    Normal.startsWith { base with names := base.names ++ names } base = true := by
  rw [Normal.startsWith, beq_self_eq_true, Bool.true_or, Bool.true_and, List.isPrefixOf_iff_prefix]
  exact List.prefix_append base.names names

end Path

/-! ## Inward names -/

/-- The components of a name as a path spells them: what stands between its slashes, without the
empty stretches and the single dots. -/
def namesOf (name : String) : List Bytes :=
  ((name.toList.splitOn '/').filter fun piece => piece ≠ [] ∧ piece ≠ ['.']).map Utf8.spell

/-- A name that says something, does not start at the root and never leads back. -/
structure Inward (name : String) : Prop where
  nonempty : name ≠ ""
  relative : name.toList.head? ≠ some '/'
  onward : ['.', '.'] ∉ name.toList.splitOn '/'

namespace Path

theorem slash_mem_char (char : Char) : slash ∈ String.utf8EncodeChar char ↔ char = '/' := by
  constructor
  · intro inside
    rcases Utf8.bounds_of_mem inside with ⟨number, _⟩ | ⟨high, _⟩ | ⟨high, _⟩
    · exact Char.ext (UInt32.toNat_inj.mp number.symm)
    · exact absurd high (by decide)
    · exact absurd high (by decide)
  · rintro rfl
    decide

/-- What holds no slash is the beginning of the first stretch. -/
theorem splitOn_append {front : Bytes} (free : slash ∉ front) (back : Bytes) :
    (front ++ back).splitOn slash = (back.splitOn slash).modifyHead (front ++ ·) := by
  induction front with
  | nil => exact (congrFun List.modifyHead_id _).symm
  | cons first rest ih =>
      obtain ⟨here, later⟩ := not_or.mp (mt List.mem_cons.mpr free)
      rw [List.cons_append, List.splitOn_cons_eq_if_modifyHead,
        if_neg (mt beq_iff_eq.mp (Ne.symm here)), ih later, List.modifyHead_modifyHead]
      rfl

/-- Spelling a text and splitting it may change places. -/
theorem splitOn_spell (chars : List Char) :
    (Utf8.spell chars).splitOn slash = (chars.splitOn '/').map Utf8.spell := by
  induction chars with
  | nil => rfl
  | cons first rest ih =>
      rw [Utf8.spell_cons, List.splitOn_cons_eq_if_modifyHead]
      by_cases same : first = '/'
      · subst same
        rw [if_pos (beq_self_eq_true '/'), List.map_cons, ← ih]
        exact List.splitOn_append_cons_self [] (Utf8.spell rest)
      · rw [if_neg (mt beq_iff_eq.mp same), splitOn_append (mt (slash_mem_char first).mp same), ih]
        cases rest.splitOn '/' <;> rfl

variable {name : String}

theorem pieces_ofText (name : String) :
    (ofText name).pieces = (name.toList.splitOn '/').map Utf8.spell := by
  rw [pieces, ofText, utf8_eq_spell, splitOn_spell]

theorem components_ofText (name : String) : (ofText name).components = namesOf name := by
  rw [components, pieces_ofText, namesOf, List.filter_map]
  refine congrArg _ (List.filter_congr fun piece _ => ?_)
  have nothing : Utf8.spell piece = [] ↔ piece = [] :=
    Utf8.spell_injective.eq_iff' (show Utf8.spell [] = [] from rfl)
  have dot : Utf8.spell piece = here ↔ piece = ['.'] :=
    Utf8.spell_injective.eq_iff' (show Utf8.spell ['.'] = here from rfl)
  rw [Function.comp_apply, isStep, Bool.eq_iff_iff, Bool.and_eq_true, bne_iff_ne, bne_iff_ne,
    decide_eq_true_iff, Ne, Ne, nothing, dot]

theorem isAbsolute_ofText (name : String) :
    (ofText name).isAbsolute = true ↔ name.toList.head? = some '/' := by
  rw [isAbsolute, beq_iff_eq, ofText, utf8_eq_spell]
  cases name.toList with
  | nil => exact iff_of_false nofun nofun
  | cons first rest =>
      rw [Utf8.spell_cons, List.head?_append_of_ne_nil _ (String.utf8EncodeChar_ne_nil),
        List.head?_cons, Option.some_inj]
      refine ⟨fun leads => (slash_mem_char first).mp (List.mem_of_head? leads), ?_⟩
      rintro rfl
      rfl

theorem contains_parent_ofText (name : String) :
    (ofText name).components.contains parent = true ↔ ['.', '.'] ∈ name.toList.splitOn '/' := by
  have spelled : parent = Utf8.spell ['.', '.'] := rfl
  rw [List.contains_iff_mem, parent_mem_components, pieces_ofText, spelled]
  exact List.mem_map_of_injective Utf8.spell_injective

theorem isAbsolute_of_inward (inward : Inward name) : (ofText name).isAbsolute = false :=
  Bool.eq_false_iff.mpr (mt (isAbsolute_ofText name).mp inward.relative)

theorem normal_join_of_inward (base : Path) (inward : Inward name) :
    (base.join (ofText name)).normal =
      { base.normal with names := base.normal.names ++ namesOf name } := by
  rw [normal_join base (isAbsolute_of_inward inward), components_ofText]
  intro back
  exact inward.onward ((contains_parent_ofText name).mp (List.contains_iff_mem.mpr back))

end Path

/-! ## The path of a name -/

namespace Store

variable {name : String}

theorem locate_of_inward (store : Store) (inward : Inward name) :
    store.locate name = .ok (store.root.join (.ofText name)) := by
  have inside : (store.root.join (.ofText name)).normal.startsWith store.root.normal = true := by
    rw [Path.normal_join_of_inward store.root inward]
    exact Path.startsWith_append store.root.normal (namesOf name)
  have onward := mt (Path.contains_parent_ofText name).mp inward.onward
  rw [locate, if_neg (mt String.isEmpty_iff.mp inward.nonempty),
    if_neg (mt (Path.isAbsolute_ofText name).mp inward.relative), if_neg onward]
  exact if_pos inside

/-- What is wrong with a name, in the order in which a store looks. -/
inductive Amiss (name : String) : Refusal → Prop where
  | emptyName (nothing : name = "") : Amiss name .emptyName
  | absolutePath (said : name ≠ "") (atRoot : name.toList.head? = some '/') :
      Amiss name .absolutePath
  | traversal (said : name ≠ "") (relative : name.toList.head? ≠ some '/')
      (back : ['.', '.'] ∈ name.toList.splitOn '/') : Amiss name .traversal

/-- A name is inward, or one thing is wrong with it and every store refuses it for that. -/
theorem inward_or_amiss (store : Store) (name : String) :
    Inward name ∨ ∃ refusal, Amiss name refusal ∧ store.locate name = .error refusal := by
  by_cases nothing : name = ""
  · subst nothing
    exact .inr ⟨.emptyName, .emptyName rfl, rfl⟩
  have said := mt String.isEmpty_iff.mp nothing
  by_cases atRoot : name.toList.head? = some '/'
  · refine .inr ⟨.absolutePath, .absolutePath nothing atRoot, ?_⟩
    rw [locate, if_neg said]
    exact if_pos ((Path.isAbsolute_ofText name).mpr atRoot)
  have relative := mt (Path.isAbsolute_ofText name).mp atRoot
  by_cases back : ['.', '.'] ∈ name.toList.splitOn '/'
  · refine .inr ⟨.traversal, .traversal nothing atRoot back, ?_⟩
    rw [locate, if_neg said, if_neg relative]
    exact if_pos ((Path.contains_parent_ofText name).mpr back)
  · exact .inl ⟨nothing, atRoot, back⟩

theorem not_inward_of_amiss {refusal : Refusal} (amiss : Amiss name refusal) : ¬Inward name := by
  intro inward
  cases amiss with
  | emptyName nothing => exact inward.nonempty nothing
  | absolutePath _ atRoot => exact inward.relative atRoot
  | traversal _ _ back => exact inward.onward back

/-- A name is refused for what is wrong with it, so never because its path gets out. -/
theorem locate_eq_error_iff (store : Store) (name : String) (refusal : Refusal) :
    store.locate name = .error refusal ↔ Amiss name refusal := by
  constructor
  · intro refused
    rcases store.inward_or_amiss name with inward | ⟨actual, amiss, located⟩
    · rw [store.locate_of_inward inward] at refused
      cases refused
    · rw [located] at refused
      cases refused
      exact amiss
  · intro amiss
    rcases store.inward_or_amiss name with inward | ⟨actual, amiss', located⟩
    · exact absurd inward (not_inward_of_amiss amiss)
    · rw [located]
      cases amiss <;> cases amiss' <;> first | rfl | contradiction

/-- A name that is refused is reported with what is wrong with it. -/
theorem path_eq_error_iff (store : Store) (name : String) (fault : Fault) :
    store.path name = .error fault ↔
      ∃ refusal, Amiss name refusal ∧ fault = .invalidImageName name refusal.text := by
  simp only [← store.locate_eq_error_iff name, path]
  cases store.locate name with
  | ok found =>
      constructor
      · rintro ⟨⟩
      · rintro ⟨_, ⟨⟩, _⟩
  | error refusal =>
      constructor
      · rintro ⟨⟩
        exact ⟨refusal, rfl, rfl⟩
      · rintro ⟨_, ⟨⟩, rfl⟩
        rfl

/-- **Names cannot leave the store.**  Exactly the inward names have a path, the root joined with
the name; its normal form is that of the root with exactly the components of the name behind; and
no name is ever refused because its path gets out, whatever the root is. -/
theorem path_inward (store : Store) (name : String) :
    ((∃ path, store.path name = .ok path) ↔ Inward name) ∧
      (∀ path, store.path name = .ok path →
        path = store.root.join (.ofText name) ∧
          path.normal =
            { store.root.normal with names := store.root.normal.names ++ namesOf name }) ∧
      store.path name ≠ .error (.invalidImageName name Refusal.escapes.text) := by
  rcases store.inward_or_amiss name with inward | ⟨refusal, amiss, located⟩
  · have found : store.path name = .ok (store.root.join (.ofText name)) := by
      rw [path, store.locate_of_inward inward]
      rfl
    rw [found]
    refine ⟨⟨fun _ => inward, fun _ => ⟨_, rfl⟩⟩, ?_, ?_⟩
    · rintro path ⟨⟩
      exact ⟨rfl, Path.normal_join_of_inward store.root inward⟩
    · rintro ⟨⟩
  · have refused : store.path name = .error (.invalidImageName name refusal.text) := by
      rw [path, located]
      rfl
    have outside := not_inward_of_amiss amiss
    rw [refused]
    refine ⟨⟨?_, fun inward => absurd inward outside⟩, ?_, ?_⟩
    · rintro ⟨_, ⟨⟩⟩
    · rintro _ ⟨⟩
    · cases amiss <;> simp [Refusal.text]

/-- A root with a double dot and a slash behind it is no way out. -/
example : Except.map Path.normal
    ((Store.mk (.ofText "srv/../images/")).path "demos//./blink.bin") =
    .ok ⟨false, [utf8 "images", utf8 "demos", utf8 "blink.bin"]⟩ := by
  rfl

end Store

end Overlay
