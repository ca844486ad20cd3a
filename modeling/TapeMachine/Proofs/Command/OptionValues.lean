import TapeMachine.Command.Arguments

/-!
# What the options give

In an accepted argument list every option is given at most once, and each of them sets one thing.
So what a list gives for an option is what its value reads as, in whichever order the options come.
-/

namespace TapeMachine.Given

variable {α : Type} {get : Given → Option α} {read : String → Option α} {name : OptionName}
  {value : String} {seen : List OptionName} {pairs : List (OptionName × String)} {g g' : Given}

/-- What has been seen is not given again. -/
theorem lookup_of_mem_seen (h : assignAll seen pairs g = .ok g') (hseen : name ∈ seen) :
    pairs.lookup name = none := by
  induction pairs generalizing seen g with
  | nil => rfl
  | cons first pairs ih =>
    obtain ⟨other, value⟩ := first
    obtain ⟨hfresh, next, -, hrest⟩ := assignAll_cons_eq_ok_iff.mp h
    have hne : name ≠ other := fun heq => hfresh (heq ▸ hseen)
    rw [List.lookup_cons, beq_false_of_ne hne]
    exact ih hrest (List.mem_cons_of_mem other hseen)

/-- No option but its own touches a setting. -/
structure Keeps (name : OptionName) (g g' : Given) : Prop where
  program : name ≠ .program → g'.program = g.program
  input : name ≠ .input → g'.input = g.input
  tapeSize : name ≠ .tapeSize → g'.tapeSize = g.tapeSize
  boundary : name ≠ .boundary → g'.boundary = g.boundary
  inputTransform : name ≠ .inputTransform → g'.inputTransform = g.inputTransform
  eofValue : name ≠ .eofValue → g'.eofValue = g.eofValue

theorem Assigns.keeps (h : Assigns g value name g') : Keeps name g g' := by
  cases h <;> constructor <;> simp

/-- The setting `get` is that of one option: it is what the value of the option reads as, and the
other options keep it. -/
structure SetBy (name : OptionName) (read : String → Option α) (get : Given → Option α) :
    Prop where
  own : ∀ {g g' : Given} {value}, Assigns g value name g' → (read value).map some = some (get g')
  other : ∀ {g g' : Given} {other value}, Assigns g value other g' → other ≠ name →
    get g' = get g

theorem SetBy.assignAll (hset : SetBy name read get) (h : assignAll seen pairs g = .ok g') :
    (pairs.lookup name).elim (some (get g)) (fun value => (read value).map some)
      = some (get g') := by
  induction pairs generalizing seen g with
  | nil =>
    obtain rfl : g = g' := Except.ok.inj h
    rfl
  | cons first pairs ih =>
    obtain ⟨other, value⟩ := first
    obtain ⟨-, next, hassign, hrest⟩ := assignAll_cons_eq_ok_iff.mp h
    have hgoes := ih hrest
    by_cases heq : other = name
    · subst heq
      -- The option is not given again, so the rest keeps what it has set.
      rw [lookup_of_mem_seen hrest List.mem_cons_self] at hgoes
      rw [List.lookup_cons_self, Option.elim_some, hset.own (assigns_of_assign hassign)]
      exact hgoes
    · rw [hset.other (assigns_of_assign hassign) heq] at hgoes
      rw [List.lookup_cons, beq_false_of_ne (Ne.symm heq)]
      exact hgoes

/-- Each setting is what the value that was given for it reads as. -/
structure ReadFrom (pairs : List (OptionName × String)) (g : Given) : Prop where
  program : (pairs.lookup .program).mapM path? = some g.program
  input : (pairs.lookup .input).mapM path? = some g.input
  tapeSize : (pairs.lookup .tapeSize).mapM tapeSize? = some g.tapeSize
  boundary : pairs.lookup .boundary = g.boundary.map Boundary.name
  inputTransform : pairs.lookup .inputTransform = g.inputTransform.map InputTransform.name
  eofValue : (pairs.lookup .eofValue).mapM byte? = some g.eofValue

theorem SetBy.mapM_lookup (hset : SetBy name read get) (hempty : get {} = none)
    (h : Given.assignAll seen pairs {} = .ok g) : (pairs.lookup name).mapM read = some (get g) := by
  have hset := hset.assignAll h
  rw [hempty] at hset
  cases hgiven : pairs.lookup name with
  | none | some value =>
    rw [hgiven] at hset
    exact hset

/-- A setting that is chosen by name is given by its name. -/
theorem eq_map_name {ofName : String → Except UnknownName α} {named : α → String}
    {given : Option String} {setting : Option α}
    (hname : ∀ {text value}, ofName text = .ok value ↔ named value = text)
    (h : given.mapM (fun value => (ofName value).toOption) = some setting) :
    given = setting.map named := by
  cases given with
  | none =>
    obtain rfl : none = setting := Option.some.inj h
    rfl
  | some text =>
    obtain ⟨value, hvalue, rfl⟩ := Option.map_eq_some_iff.mp h
    have hread : ofName text = .ok value := by
      dsimp only at hvalue
      cases hread : ofName text with
      | error problem => simp [hread, Except.toOption] at hvalue
      | ok found =>
        rw [hread] at hvalue
        rw [Option.some.inj hvalue]
    rw [Option.map_some, hname.mp hread]

theorem readFrom_of_assignAll (h : assignAll [] pairs {} = .ok g) : ReadFrom pairs g where
  program := SetBy.mapM_lookup ⟨fun (.program hread) => congrArg (Option.map some) hread,
    fun hassigns => hassigns.keeps.program⟩ rfl h
  input := SetBy.mapM_lookup ⟨fun (.input hread) => congrArg (Option.map some) hread,
    fun hassigns => hassigns.keeps.input⟩ rfl h
  tapeSize := SetBy.mapM_lookup ⟨fun (.tapeSize hread) => congrArg (Option.map some) hread,
    fun hassigns => hassigns.keeps.tapeSize⟩ rfl h
  boundary := eq_map_name Boundary.ofName_eq_ok_iff (SetBy.mapM_lookup
    ⟨fun (.boundary hread) => congrArg (Option.map some) hread,
      fun hassigns => hassigns.keeps.boundary⟩ rfl h)
  inputTransform := eq_map_name InputTransform.ofName_eq_ok_iff (SetBy.mapM_lookup
    ⟨fun (.inputTransform hread) => congrArg (Option.map some) hread,
      fun hassigns => hassigns.keeps.inputTransform⟩ rfl h)
  eofValue := SetBy.mapM_lookup ⟨fun (.eofValue hread) => congrArg (Option.map some) hread,
    fun hassigns => hassigns.keeps.eofValue⟩ rfl h

/-- An accepted argument list is one of options and values, and gives what they read as. -/
theorem readFrom_of_arguments {arguments : List String} (h : ofArguments arguments = .ok g) :
    ∃ pairs, Given.pairs arguments = .ok pairs ∧ ReadFrom pairs g := by
  unfold ofArguments at h
  cases hpairs : Given.pairs arguments with
  | error problem =>
    rw [hpairs] at h
    cases h
  | ok pairs =>
    rw [hpairs] at h
    exact ⟨pairs, rfl, readFrom_of_assignAll h⟩

end TapeMachine.Given
