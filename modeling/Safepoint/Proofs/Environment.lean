import Safepoint.Options.Environment
import Safepoint.Proofs.Basic

/-!
# Options from the environment

Each variable gives one setting, and of the values for a setting the last one counts. So it does not matter in what
order the variables come, as long as those for one setting keep theirs. The first value that cannot be read ends it all,
and what came before has been done.
-/
namespace Safepoint

/-- Why a value is refused, if it is. -/
def refusal? {α : Type} : Except OptionsFault α → Option OptionsFault
  | .ok _ => none
  | .error fault => some fault

theorem refusal?_eq_none {α : Type} {found : Except OptionsFault α} : refusal? found = none ↔ ∃ a, found = .ok a := by
  cases found <;> simp [refusal?]

theorem refusal?_map {α β : Type} (found : Except OptionsFault α) (f : α → β) :
    refusal? (found.map f) = refusal? found := by
  cases found <;> rfl

namespace Options

namespace Setting

/-- The name of a setting in the environment. The collector's own options have no fixed names. -/
def name? : Setting → Option String
  | .barrier => some "BARRIER"
  | .compressedPointers => some "COMPRESSED_POINTERS"
  | .rootBufferCapacity => some "ROOT_BUFFER_CAPACITY"
  | .classUnloading => some "CLASS_UNLOADING"
  | .parallelRootScan => some "PARALLEL_ROOT_SCAN"
  | .relocateCode => some "RELOCATE_CODE"
  | .weakProcessing => some "WEAK_PROCESSING"
  | .engine _ => none

/-- The variable gives the setting: by its name, or for the collector in any case. -/
def NamedBy (setting : Setting) (key : String) : Prop :=
  (∃ name, setting.name? = some name ∧ key = "GCBRIDGE_" ++ name) ∨
  ∃ rest, setting = .engine (String.ofList (Text.fold rest.toList)) ∧ key = "GCBRIDGE_MMTK_" ++ rest

/-- Why a setting cannot be given a value, if it cannot. The collector's own options are taken as they are. -/
def refuses? : Setting → String → Option OptionsFault
  | .barrier, text => refusal? (BarrierKind.ofText text)
  | .compressedPointers, text => refusal? (flagOfText "COMPRESSED_POINTERS" text)
  | .rootBufferCapacity, text => refusal? (integerOfText "ROOT_BUFFER_CAPACITY" text)
  | .classUnloading, text => refusal? (flagOfText "CLASS_UNLOADING" text)
  | .parallelRootScan, text => refusal? (flagOfText "PARALLEL_ROOT_SCAN" text)
  | .relocateCode, text => refusal? (flagOfText "RELOCATE_CODE" text)
  | .weakProcessing, text => refusal? (WeakProcessing.ofText text)
  | .engine _, _ => none

end Setting

variable {o left : Options} {key text : String} {setting : Setting}

theorem after?_append (start rest : List Char) : after? start (start ++ rest) = some rest := by
  simp [after?]

theorem eq_append_of_after? {start rest : List Char} (h : after? start key.toList = some rest) :
    key = String.ofList start ++ String.ofList rest := by
  unfold after? at h
  split at h
  · rename_i hprefix
    obtain ⟨tail, htail⟩ := List.isPrefixOf_iff_prefix.1 hprefix
    rw [← htail, List.drop_left, Option.some.injEq] at h
    rw [← String.toList_inj, String.toList_append, String.toList_ofList, String.toList_ofList, ← htail, h]
  · cases h

theorem name?_of_namedSetting? {name : String} (h : namedSetting? name = some setting) :
    setting.name? = some name := by
  unfold namedSetting? at h
  split_ifs at h with hname hname hname hname hname hname hname
  all_goals
    cases h
    rw [hname]
    rfl

theorem setting?_eq_some_iff : setting? key = some setting ↔ setting.NamedBy key := by
  constructor
  · intro h
    unfold setting? at h
    split at h
    · rename_i rest hafter
      cases h
      exact .inr ⟨String.ofList rest, by rw [String.toList_ofList], eq_append_of_after? hafter⟩
    · split at h
      · rename_i rest hafter
        exact .inl ⟨String.ofList rest, name?_of_namedSetting? h, eq_append_of_after? hafter⟩
      · cases h
  · rintro (⟨name, hname, rfl⟩ | ⟨rest, rfl, rfl⟩)
    · cases setting <;> cases hname <;> decide +kernel
    · rw [setting?, String.toList_append, after?_append]

instance : Decidable (setting.NamedBy key) := decidable_of_iff _ setting?_eq_some_iff

variable {pairs other : List (String × String)} {α : Type}

/-- The pairs that give a setting. -/
def addressing (setting : Setting) (pairs : List (String × String)) : List (String × String) :=
  pairs.filter fun p => setting.NamedBy p.1

/-- The values that are given to a setting, one after another. -/
def textsFor (setting : Setting) (pairs : List (String × String)) : List String :=
  (addressing setting pairs).map Prod.snd

/-- All values can be read. -/
def Readable (pairs : List (String × String)) : Prop :=
  ∀ p ∈ pairs, ∀ setting : Setting, setting.NamedBy p.1 → setting.refuses? p.2 = none

/-- The new value is what the last text stands for. Without any text the old one stays. -/
def Takes (read : String → Except OptionsFault α) (texts : List String) (old new : α) : Prop :=
  match texts.getLast? with
  | none => new = old
  | some text => read text = .ok new

/-- The options as they are after some pairs. -/
structure Overridden (o : Options) (pairs : List (String × String)) (left : Options) : Prop where
  barrier : Takes BarrierKind.ofText (textsFor .barrier pairs) o.barrier left.barrier
  compressedPointers : Takes (flagOfText "COMPRESSED_POINTERS") (textsFor .compressedPointers pairs)
    o.compressedPointers left.compressedPointers
  rootBufferCapacity : Takes (integerOfText "ROOT_BUFFER_CAPACITY") (textsFor .rootBufferCapacity pairs)
    o.rootBufferCapacity left.rootBufferCapacity
  classUnloading : Takes (flagOfText "CLASS_UNLOADING") (textsFor .classUnloading pairs)
    o.classUnloading left.classUnloading
  parallelRootScan : Takes (flagOfText "PARALLEL_ROOT_SCAN") (textsFor .parallelRootScan pairs)
    o.parallelRootScan left.parallelRootScan
  relocateCode : Takes (flagOfText "RELOCATE_CODE") (textsFor .relocateCode pairs) o.relocateCode left.relocateCode
  weakProcessing : Takes WeakProcessing.ofText (textsFor .weakProcessing pairs) o.weakProcessing left.weakProcessing
  engine : ∀ name : String, left.engine[name]? = ((textsFor (.engine name) pairs).getLast? <|> o.engine[name]?)

/-- The first value that cannot be read comes after these pairs. -/
def StopsAfter (pairs before : List (String × String)) (fault : OptionsFault) : Prop :=
  ∃ key text after, ∃ setting : Setting, pairs = before ++ (key, text) :: after ∧ Readable before ∧
    setting.NamedBy key ∧ setting.refuses? text = some fault

theorem refusal?_assign (o : Options) (setting : Setting) (text : String) :
    refusal? (o.assign setting text) = setting.refuses? text := by
  cases setting with
  | engine => rfl
  | barrier | compressedPointers | rootBufferCapacity | classUnloading | parallelRootScan | relocateCode
    | weakProcessing => rw [assign, refusal?_map, Setting.refuses?]

theorem assign_eq_error_iff {fault : OptionsFault} :
    o.assign setting text = .error fault ↔ setting.refuses? text = some fault := by
  rw [← refusal?_assign o]
  cases o.assign setting text <;> simp [refusal?]

theorem exists_assign_eq_ok (h : setting.refuses? text = none) : ∃ left, o.assign setting text = .ok left := by
  rwa [← refusal?_eq_none, refusal?_assign]

theorem readable_cons {p : String × String} : Readable (p :: pairs) ↔
    (∀ setting : Setting, setting.NamedBy p.1 → setting.refuses? p.2 = none) ∧ Readable pairs := List.forall_mem_cons

/-- A pair that names no setting does nothing. -/
theorem assignAll_cons_of_unnamed (h : ∀ setting : Setting, ¬setting.NamedBy key) (o : Options) (text : String)
    (pairs : List (String × String)) : o.assignAll ((key, text) :: pairs) = o.assignAll pairs := by
  have hnone : setting? key = none := Option.eq_none_iff_forall_ne_some.2 fun setting hsome =>
    h setting (setting?_eq_some_iff.1 hsome)
  rw [assignAll, hnone]

theorem assignAll_cons_ok (hnamed : setting.NamedBy key) (h : o.assign setting text = .ok left)
    (pairs : List (String × String)) : o.assignAll ((key, text) :: pairs) = left.assignAll pairs := by
  simp only [assignAll, setting?_eq_some_iff.2 hnamed, h]

theorem assignAll_cons_error {fault : OptionsFault} (hnamed : setting.NamedBy key)
    (h : o.assign setting text = .error fault) (pairs : List (String × String)) :
    o.assignAll ((key, text) :: pairs) = (some fault, o) := by
  simp only [assignAll, setting?_eq_some_iff.2 hnamed, h]

/-- What is done to the options when a setting is given a value. -/
inductive Assigned (o : Options) (text : String) : Setting → Options → Prop where
  | barrier {barrier : BarrierKind} (h : BarrierKind.ofText text = .ok barrier) :
    Assigned o text .barrier { o with barrier }
  | compressedPointers {compressedPointers : Bool}
    (h : flagOfText "COMPRESSED_POINTERS" text = .ok compressedPointers) :
    Assigned o text .compressedPointers { o with compressedPointers }
  | rootBufferCapacity {rootBufferCapacity : Nat}
    (h : integerOfText "ROOT_BUFFER_CAPACITY" text = .ok rootBufferCapacity) :
    Assigned o text .rootBufferCapacity { o with rootBufferCapacity }
  | classUnloading {classUnloading : Bool} (h : flagOfText "CLASS_UNLOADING" text = .ok classUnloading) :
    Assigned o text .classUnloading { o with classUnloading }
  | parallelRootScan {parallelRootScan : Bool} (h : flagOfText "PARALLEL_ROOT_SCAN" text = .ok parallelRootScan) :
    Assigned o text .parallelRootScan { o with parallelRootScan }
  | relocateCode {relocateCode : Bool} (h : flagOfText "RELOCATE_CODE" text = .ok relocateCode) :
    Assigned o text .relocateCode { o with relocateCode }
  | weakProcessing {weakProcessing : WeakProcessing} (h : WeakProcessing.ofText text = .ok weakProcessing) :
    Assigned o text .weakProcessing { o with weakProcessing }
  | engine (name : String) : Assigned o text (.engine name) { o with engine := o.engine.insert name text }

theorem assigned_of_assign (h : o.assign setting text = .ok left) : Assigned o text setting left := by
  cases setting with
  | engine name =>
    cases h
    exact .engine name
  | barrier | compressedPointers | rootBufferCapacity | classUnloading | parallelRootScan | relocateCode
    | weakProcessing =>
    rw [assign] at h
    obtain ⟨value, hread, rfl⟩ := except_map_eq_ok.1 h
    constructor
    exact hread

/-- The setting is the part of the options that `view` shows, and its values are read by `read`. -/
structure Governs (setting : Setting) (read : String → Except OptionsFault α) (view : Options → α) : Prop where
  given : ∀ {o text left}, Assigned o text setting left → read text = .ok (view left)
  aside : ∀ {o text left other}, other ≠ setting → Assigned o text other left → view left = view o

theorem governs_engine (name : String) :
    Governs (.engine name) (fun text => .ok (some text)) (·.engine[name]?) where
  given h := by
    cases h
    simp
  aside hne h := by
    cases h with
    | engine other =>
      have hne : other ≠ name := fun he => hne (congrArg Setting.engine he)
      simp [Std.ExtTreeMap.getElem?_insert, hne]
    | _ => rfl

section Takes

variable {read : String → Except OptionsFault α} {view : Options → α} {texts : List String} {old mid new : α}

theorem takes_concat (read : String → Except OptionsFault α) (texts : List String) (text : String) (old new : α) :
    Takes read (texts ++ [text]) old new ↔ read text = .ok new := by
  rw [Takes, List.getLast?_concat]

theorem takes_cons (hfirst : read text = .ok mid) (h : Takes read texts mid new) :
    Takes read (text :: texts) old new := by
  obtain rfl | ⟨front, last, rfl⟩ := List.eq_nil_or_concat texts
  · obtain rfl : new = mid := h
    exact hfirst
  · rw [List.concat_eq_append, takes_concat] at h
    rwa [List.concat_eq_append, ← List.cons_append, takes_concat]

theorem Takes.unique {new' : α} (h : Takes read texts old new) (h' : Takes read texts old new') : new = new' := by
  obtain rfl | ⟨front, last, rfl⟩ := List.eq_nil_or_concat texts
  · exact Eq.trans h h'.symm
  · rw [List.concat_eq_append, takes_concat] at h h'
    exact Except.ok.inj (h.symm.trans h')

/-- Where every text is taken as it is, the last one counts, if there is one. -/
theorem takes_some_iff {old new : Option String} :
    Takes (fun text => .ok (some text)) texts old new ↔ new = (texts.getLast? <|> old) := by
  obtain rfl | ⟨front, last, rfl⟩ := List.eq_nil_or_concat texts
  · exact Iff.rfl
  · rw [List.concat_eq_append, takes_concat, List.getLast?_concat, Except.ok.injEq]
    exact eq_comm

theorem textsFor_cons (setting : Setting) (key text : String) (pairs : List (String × String)) :
    textsFor setting ((key, text) :: pairs) =
      if setting.NamedBy key then text :: textsFor setting pairs else textsFor setting pairs := by
  by_cases hnamed : setting.NamedBy key <;> simp [textsFor, addressing, hnamed]

theorem Setting.NamedBy.unique {other : Setting} (h : setting.NamedBy key) (h' : other.NamedBy key) : other = setting :=
  Option.some.inj ((setting?_eq_some_iff.2 h').symm.trans (setting?_eq_some_iff.2 h))

/-- Pairs that can all be read leave a setting with the last value for it. -/
theorem takes_of_assignAll (hgoverns : Governs setting read view) (h : o.assignAll pairs = (none, left)) :
    Takes read (textsFor setting pairs) (view o) (view left) := by
  induction pairs generalizing o with
  | nil =>
    cases h
    rfl
  | cons p pairs ih =>
    obtain ⟨key, text⟩ := p
    rw [textsFor_cons]
    by_cases hnamed : ∃ other : Setting, other.NamedBy key
    · obtain ⟨other, hother⟩ := hnamed
      cases hassign : o.assign other text with
      | error fault =>
        rw [assignAll_cons_error hother hassign] at h
        cases h
      | ok mid =>
        rw [assignAll_cons_ok hother hassign] at h
        by_cases hsame : other = setting
        · subst hsame
          rw [if_pos hother]
          exact takes_cons (hgoverns.given (assigned_of_assign hassign)) (ih h)
        · rw [if_neg fun hsetting => hsame (hsetting.unique hother)]
          rw [← hgoverns.aside hsame (assigned_of_assign hassign)]
          exact ih h
    · have hnone : ∀ other : Setting, ¬other.NamedBy key := not_exists.1 hnamed
      rw [assignAll_cons_of_unnamed hnone] at h
      rw [if_neg (hnone setting)]
      exact ih h

end Takes

theorem overridden_of_assignAll (h : o.assignAll pairs = (none, left)) : Overridden o pairs left := by
  constructor
  case engine =>
    intro name
    exact takes_some_iff.1 (takes_of_assignAll (governs_engine name) h)
  all_goals
    apply takes_of_assignAll _ h
    constructor
    · intro o text left hassigned
      cases hassigned
      assumption
    · intro o text left other hne hassigned
      cases hassigned <;> first | exact absurd rfl hne | rfl

theorem textsFor_congr (h : ∀ setting, addressing setting other = addressing setting pairs) (setting : Setting) :
    textsFor setting other = textsFor setting pairs := by
  rw [textsFor, textsFor, h]

/-- Pairs that give each setting the same values, one after another, leave the same options. -/
theorem Overridden.unique {left' : Options} (h : Overridden o pairs left) (h' : Overridden o other left')
    (hsame : ∀ setting, addressing setting other = addressing setting pairs) : left' = left := by
  have hengine : left'.engine = left.engine := Std.ExtTreeMap.ext_getElem? fun name => by
    rw [h'.engine, h.engine, textsFor_congr hsame]
  have htexts := textsFor_congr hsame
  obtain ⟨barrier, pointers, capacity, unloading, parallel, relocate, weak, -⟩ := h
  obtain ⟨barrier', pointers', capacity', unloading', parallel', relocate', weak', -⟩ := h'
  rw [htexts] at barrier' pointers' capacity' unloading' parallel' relocate' weak'
  cases left
  cases left'
  rw [Options.mk.injEq]
  exact ⟨barrier'.unique barrier, pointers'.unique pointers, capacity'.unique capacity, unloading'.unique unloading,
    parallel'.unique parallel, relocate'.unique relocate, weak'.unique weak, hengine⟩

theorem assignAll_append (o : Options) (before after : List (String × String)) : o.assignAll (before ++ after) =
    match o.assignAll before with
    | (none, left) => left.assignAll after
    | (some fault, left) => (some fault, left) := by
  induction before generalizing o with
  | nil => rfl
  | cons p before ih =>
    obtain ⟨key, text⟩ := p
    simp only [List.cons_append, assignAll]
    split
    · exact ih o
    · split
      · exact ih _
      · rfl

theorem exists_assignAll_eq_none (h : Readable pairs) (o : Options) : ∃ left, o.assignAll pairs = (none, left) := by
  induction pairs generalizing o with
  | nil => exact ⟨o, rfl⟩
  | cons p pairs ih =>
    obtain ⟨key, text⟩ := p
    obtain ⟨hfirst, hrest⟩ := readable_cons.1 h
    by_cases hnamed : ∃ setting : Setting, setting.NamedBy key
    · obtain ⟨setting, hsetting⟩ := hnamed
      obtain ⟨mid, hassign⟩ := exists_assign_eq_ok (o := o) (hfirst setting hsetting)
      rw [assignAll_cons_ok hsetting hassign]
      exact ih hrest mid
    · rw [assignAll_cons_of_unnamed (not_exists.1 hnamed)]
      exact ih hrest o

theorem applyEnvironment_of_readable (h : Readable pairs) (o : Options) :
    Overridden o pairs (o.applyEnvironment pairs).2 ∧
      (o.applyEnvironment pairs).1 = (o.applyEnvironment pairs).2.validate := by
  obtain ⟨left, hall⟩ := exists_assignAll_eq_none h o
  rw [applyEnvironment, hall]
  exact ⟨overridden_of_assignAll hall, rfl⟩

theorem applyEnvironment_of_stops {before : List (String × String)} {fault : OptionsFault}
    (h : StopsAfter pairs before fault) (o : Options) :
    o.applyEnvironment pairs = (.error (.invalidOptions fault), (o.applyEnvironment before).2) := by
  obtain ⟨key, text, after, setting, rfl, hbefore, hnamed, hrefused⟩ := h
  obtain ⟨left, hall⟩ := exists_assignAll_eq_none hbefore o
  rw [applyEnvironment, applyEnvironment, assignAll_append, hall]
  simp only
  rw [assignAll_cons_error hnamed (assign_eq_error_iff.2 hrefused)]

theorem exists_stopsAfter (h : ¬Readable pairs) : ∃ before fault, StopsAfter pairs before fault := by
  induction pairs with
  | nil => exact absurd (List.forall_mem_nil _) h
  | cons p pairs ih =>
    by_cases hfirst : ∀ setting : Setting, setting.NamedBy p.1 → setting.refuses? p.2 = none
    · have hrest : ¬Readable pairs := fun hrest => h (readable_cons.2 ⟨hfirst, hrest⟩)
      obtain ⟨before, fault, key, text, after, setting, rfl, hbefore, hstop⟩ := ih hrest
      exact ⟨p :: before, fault, key, text, after, setting, rfl, readable_cons.2 ⟨hfirst, hbefore⟩, hstop⟩
    · push Not at hfirst
      obtain ⟨setting, hnamed, hrefused⟩ := hfirst
      obtain ⟨fault, hfault⟩ := Option.ne_none_iff_exists'.1 hrefused
      exact ⟨[], fault, p.1, p.2, pairs, setting, rfl, List.forall_mem_nil _, hnamed, hfault⟩

theorem readable_iff_addressing :
    Readable pairs ↔ ∀ setting : Setting, ∀ p ∈ addressing setting pairs, setting.refuses? p.2 = none := by
  simp only [Readable, addressing, List.mem_filter, decide_eq_true_eq]
  exact ⟨fun h setting p hp => h p hp.1 setting hp.2, fun h p hp setting hnamed => h setting p ⟨hp, hnamed⟩⟩

/-- The environment changes the options if all its values can be read and the outcome is valid, and only then without an
error. What can be read is taken: each setting has the last of the values for it, or what it had. A variable that names
no setting might as well not be there, and neither does it matter in what order variables for different settings come.
The first value that cannot be read is the error, and the options are left as the variables before it have made them. -/
theorem last_values_win (o : Options) (pairs : List (String × String)) :
    ((o.applyEnvironment pairs).1 = .ok () ↔ Readable pairs ∧ (o.applyEnvironment pairs).2.validate = .ok ()) ∧
    (Readable pairs → Overridden o pairs (o.applyEnvironment pairs).2 ∧
      (o.applyEnvironment pairs).1 = (o.applyEnvironment pairs).2.validate) ∧
    (∀ before key text after, pairs = before ++ (key, text) :: after → (∀ setting : Setting, ¬setting.NamedBy key) →
      o.applyEnvironment pairs = o.applyEnvironment (before ++ after)) ∧
    (∀ other, (∀ setting, addressing setting other = addressing setting pairs) →
      ((o.applyEnvironment other).1 = .ok () ↔ (o.applyEnvironment pairs).1 = .ok ()) ∧
      (Readable pairs → o.applyEnvironment other = o.applyEnvironment pairs)) ∧
    (¬Readable pairs → ∃ before fault, StopsAfter pairs before fault) ∧
    ∀ before fault, StopsAfter pairs before fault →
      o.applyEnvironment pairs = (.error (.invalidOptions fault), (o.applyEnvironment before).2) := by
  have hreadable (pairs : List (String × String)) :
      (o.applyEnvironment pairs).1 = .ok () ↔ Readable pairs ∧ (o.applyEnvironment pairs).2.validate = .ok () := by
    by_cases h : Readable pairs
    · rw [(applyEnvironment_of_readable h o).2, and_iff_right h]
    · obtain ⟨before, fault, hstop⟩ := exists_stopsAfter h
      rw [applyEnvironment_of_stops hstop]
      simp [h]
  refine ⟨hreadable pairs, fun h => applyEnvironment_of_readable h o, ?_, ?_, exists_stopsAfter,
    fun before fault h => applyEnvironment_of_stops h o⟩
  · rintro before key text after rfl hnone
    simp only [applyEnvironment, assignAll_append, assignAll_cons_of_unnamed hnone]
  · intro other hsame
    -- Whether all values can be read is seen setting by setting, so the order does not matter for it either.
    have hboth : Readable other ↔ Readable pairs := by
      simp only [readable_iff_addressing, hsame]
    have hequal (h : Readable pairs) : o.applyEnvironment other = o.applyEnvironment pairs := by
      obtain ⟨hpairs, hvalid⟩ := applyEnvironment_of_readable h o
      obtain ⟨hother, hvalid'⟩ := applyEnvironment_of_readable (hboth.2 h) o
      have hleft := hpairs.unique hother hsame
      exact Prod.ext (by rw [hvalid', hvalid, hleft]) hleft
    refine ⟨?_, hequal⟩
    rw [hreadable, hreadable, hboth]
    exact and_congr_right fun h => by rw [hequal h]

/-- A barrier named twice and an option of the collector in two spellings, among a variable of something else. The last
values count, also in another order, and where a value cannot be read the variables after it do nothing. -/
theorem spellings_of_plan_merged :
    let pairs := [("GCBRIDGE_BARRIER", "object"), ("PATH", "/usr/bin"), ("GCBRIDGE_MMTK_PLAN", "Immix"),
      ("GCBRIDGE_BARRIER", " Field "), ("GCBRIDGE_MMTK_Plan", "GenImmix")]
    let other := [("GCBRIDGE_MMTK_PLAN", "Immix"), ("GCBRIDGE_MMTK_Plan", "GenImmix"), ("GCBRIDGE_BARRIER", "object"),
      ("GCBRIDGE_BARRIER", " Field ")]
    let bad := [("GCBRIDGE_BARRIER", "field"), ("GCBRIDGE_CLASS_UNLOADING", "maybe"), ("GCBRIDGE_BARRIER", "none")]
    (default.applyEnvironment pairs).1 = .ok () ∧ (default.applyEnvironment pairs).2.barrier = .field ∧
      (default.applyEnvironment pairs).2.engine["plan"]? = some "GenImmix" ∧
      default.applyEnvironment other = default.applyEnvironment pairs ∧
      default.applyEnvironment bad = (.error (.invalidOptions (.notBoolean "CLASS_UNLOADING" "maybe")),
        (default.applyEnvironment [("GCBRIDGE_BARRIER", "field")]).2) := by
  intro pairs other bad
  have hok : (default.applyEnvironment pairs).1 = .ok () := by decide +kernel
  obtain ⟨hreadable, hoverridden, -, horder, -, -⟩ := last_values_win default pairs
  obtain ⟨-, -, -, -, -, hstops⟩ := last_values_win default bad
  obtain ⟨hbarrier, -, -, -, -, -, -, hengine⟩ := (hoverridden (hreadable.1 hok).1).1
  have hsame (setting : Setting) : addressing setting other = addressing setting pairs := by
    by_cases hbarrier : setting = .barrier
    · subst hbarrier
      decide +kernel
    by_cases hplan : setting = .engine "plan"
    · subst hplan
      decide +kernel
    have hnone (list : List (String × String))
        (h : ∀ p ∈ list, setting? p.1 ∈ [none, some .barrier, some (.engine "plan")]) :
        addressing setting list = [] := by
      refine List.filter_eq_nil_iff.2 fun p hp hnamed => ?_
      have hsetting := setting?_eq_some_iff.2 (of_decide_eq_true hnamed)
      have hp := h p hp
      simp [hsetting, hbarrier, hplan] at hp
    rw [hnone other (by decide +kernel), hnone pairs (by decide +kernel)]
  have hfirst : StopsAfter bad [("GCBRIDGE_BARRIER", "field")] (.notBoolean "CLASS_UNLOADING" "maybe") := by
    have hbefore : Readable [("GCBRIDGE_BARRIER", "field")] :=
      ((last_values_win default [("GCBRIDGE_BARRIER", "field")]).1.1 (by decide +kernel)).1
    exact ⟨_, _, _, .classUnloading, rfl, hbefore, by decide +kernel, by decide +kernel⟩
  have htexts : textsFor .barrier pairs = ["object", " Field "] ∧
      textsFor (.engine "plan") pairs = ["Immix", "GenImmix"] := by decide +kernel
  refine ⟨hok, ?_, ?_, (horder other hsame).2 (hreadable.1 hok).1, hstops _ _ hfirst⟩
  · rw [htexts.1] at hbarrier
    have hfield : BarrierKind.ofText " Field " = .ok .field := by decide +kernel
    exact Except.ok.inj (hbarrier.symm.trans hfield)
  · rw [hengine, htexts.2]
    rfl

end Options

end Safepoint
