import Mathlib.Data.List.Nodup
import TransformChain.Transform.Registry

/-!
# Registering transforms

A registry only grows, and only at its end: whatever calls are made on it, a transform that was
registered once is what its name stands for from then on.
-/

namespace TransformChain

/-!
## Created transforms
-/

namespace Transform

def IsCreated (transform : Transform) : Prop :=
  ∃ listing body, create listing body = .ok transform

structure Sound (transform : Transform) : Prop where
  parameters_nodup : (transform.parameters.map Parameter.name).Nodup
  source_notMem : sourceVariable ∉ transform.parameters.map Parameter.name
  parse_source : Template.parse transform.name transform.template.source = .ok transform.template

theorem nameFault?_eq_none_iff {seen : List String} {ps : List Parameter} :
    nameFault? seen ps = none ↔
      sourceVariable ∉ ps.map Parameter.name ∧ (ps.map Parameter.name).Nodup ∧
        ∀ name ∈ ps.map Parameter.name, name ∉ seen := by
  induction ps generalizing seen with
  | nil => simp [nameFault?]
  | cons p ps ih =>
      unfold nameFault?
      rw [List.map_cons, List.mem_cons, not_or, List.nodup_cons, List.forall_mem_cons]
      split
      case isTrue hsource =>
        constructor
        · intro h
          cases h
        · intro h
          exact absurd hsource.symm h.left.left
      case isFalse hsource =>
        split
        case isTrue hseen =>
          constructor
          · intro h
            cases h
          · intro h
            exact absurd (List.contains_iff_mem.mp hseen) h.right.right.left
        case isFalse hseen =>
          rw [List.contains_iff_mem] at hseen
          rw [ih]
          constructor
          · rintro ⟨hreserved, hnodup, hnew⟩
            have hp : p.name ∉ ps.map Parameter.name := fun hmem =>
              hnew p.name hmem List.mem_cons_self
            exact ⟨⟨Ne.symm hsource, hreserved⟩, ⟨hp, hnodup⟩, hseen, fun name hmem hname =>
              hnew name hmem (List.mem_cons_of_mem p.name hname)⟩
          · rintro ⟨⟨-, hreserved⟩, ⟨hp, hnodup⟩, -, hnew⟩
            refine ⟨hreserved, hnodup, fun name hmem hname => ?_⟩
            rcases List.mem_cons.mp hname with rfl | hname
            · exact hp hmem
            · exact hnew name hmem hname

theorem source_of_parse {name source : String} {template : Template}
    (h : Template.parse name source = .ok template) : template.source = source := by
  unfold Template.parse at h
  split at h
  · cases h
    rfl
  · cases h

theorem name_of_create {listing : Listing} {body : String} {transform : Transform}
    (h : create listing body = .ok transform) : transform.name = listing.name := by
  unfold create at h
  split at h
  · cases h
  · split at h
    · cases h
    · cases h
      rfl

theorem isCreated_iff {transform : Transform} : transform.IsCreated ↔ transform.Sound := by
  constructor
  · rintro ⟨listing, body, h⟩
    unfold create at h
    split at h
    case h_1 => cases h
    case h_2 hnames =>
      rcases nameFault?_eq_none_iff.mp hnames with ⟨hsource, hnodup, -⟩
      split at h
      case h_1 => cases h
      case h_2 template hparse =>
        cases h
        refine ⟨hnodup, hsource, ?_⟩
        rw [source_of_parse hparse]
        exact hparse
  · intro h
    have hnames : nameFault? [] transform.parameters = none :=
      nameFault?_eq_none_iff.mpr
        ⟨h.source_notMem, h.parameters_nodup, fun _ _ => List.not_mem_nil⟩
    refine ⟨⟨transform.name, transform.description, transform.tags, transform.parameters⟩,
      transform.template.source, ?_⟩
    unfold create
    rw [hnames, h.parse_source]

end Transform

namespace Registry

variable {registry next : Registry} {transform : Transform} {added : List Transform}

/-!
## Names of a registry
-/

structure WellFormed (registry : Registry) : Prop where
  names_nodup : registry.names.Nodup
  sound : ∀ transform ∈ registry.transforms, transform.Sound

theorem wellFormed_empty : empty.WellFormed :=
  ⟨List.nodup_nil, fun _ hmem => absurd hmem List.not_mem_nil⟩

theorem contains_iff {name : String} : registry.contains name = true ↔ name ∈ registry.names := by
  rw [contains, find?, List.find?_isSome, names, List.mem_map]
  simp only [beq_iff_eq]

theorem WellFormed.lookup_name (h : registry.WellFormed) (hmem : transform ∈ registry.transforms) :
    registry.lookup transform.name = .ok transform := by
  unfold lookup
  split
  case h_1 found hfound =>
    unfold find? at hfound
    have hname : found.name = transform.name := by simpa using List.find?_some hfound
    rw [List.inj_on_of_nodup_map h.names_nodup (List.mem_of_find?_eq_some hfound) hmem hname]
  case h_2 hnone =>
    exact absurd (beq_self_eq_true transform.name) (List.find?_eq_none.mp hnone transform hmem)

def withAll (registry : Registry) (added : List Transform) : Registry :=
  ⟨registry.transforms ++ added⟩

theorem names_withAll :
    (registry.withAll added).names = registry.names ++ added.map Transform.name :=
  List.map_append

theorem withAll_nil (registry : Registry) : registry.withAll [] = registry := by
  rw [withAll, List.append_nil]

theorem withAll_withAll (first more : List Transform) :
    (registry.withAll first).withAll more = registry.withAll (first ++ more) := by
  simp only [withAll, List.append_assoc]

theorem WellFormed.withAll_singleton (h : registry.WellFormed) (hsound : transform.Sound)
    (hnew : transform.name ∉ registry.names) : (registry.withAll [transform]).WellFormed := by
  constructor
  · rw [names_withAll]
    exact h.names_nodup.append (List.nodup_singleton _) (List.disjoint_singleton.mpr hnew)
  · intro t hmem
    rcases List.mem_append.mp hmem with hold | hadded
    · exact h.sound t hold
    · rw [List.mem_singleton.mp hadded]
      exact hsound

theorem register_of_notMem (hnew : transform.name ∉ registry.names) :
    registry.register transform = .ok (registry.withAll [transform]) := by
  rw [← contains_iff] at hnew
  exact if_neg hnew

theorem register_of_mem (htaken : transform.name ∈ registry.names) :
    registry.register transform = .error (.duplicateTemplate transform.name) := by
  rw [← contains_iff] at htaken
  exact if_pos htaken

theorem add_cases (registry : Registry) (listing : Listing) (body : String) :
    (∃ e, Transform.create listing body = .error e ∧ registry.add listing body = .error e) ∨
    (∃ transform, Transform.create listing body = .ok transform ∧
      transform.name ∈ registry.names ∧
      registry.add listing body = .error (.duplicateTemplate transform.name)) ∨
    ∃ transform, Transform.create listing body = .ok transform ∧
      transform.name ∉ registry.names ∧
      registry.add listing body = .ok (registry.withAll [transform]) := by
  unfold add
  cases Transform.create listing body with
  | error e => exact Or.inl ⟨e, rfl, rfl⟩
  | ok transform =>
      by_cases htaken : transform.name ∈ registry.names
      · exact Or.inr (Or.inl ⟨transform, rfl, htaken, register_of_mem htaken⟩)
      · exact Or.inr (Or.inr ⟨transform, rfl, htaken, register_of_notMem htaken⟩)

/-!
## Loading a manifest
-/

section Loading

variable {World : Type}

theorem bind_apply {α β : Type} (x : StateM World α) (f : α → StateM World β) (world : World) :
    (x >>= f) world = f (x world).1 (x world).2 := rfl

variable (body : String → StateM World (Except Error String))

/-- The texts of the listings are read one after the other, and each gives a transform. -/
inductive Creates : List Listing → World → List Transform → World → Prop
  | nil {world} : Creates [] world [] world
  | cons {listing rest text} {transform : Transform} {added : List Transform}
      {world between last : World}
      (hread : body listing.name world = (.ok text, between))
      (hcreate : Transform.create listing text = .ok transform)
      (hrest : Creates rest between added last) :
      Creates (listing :: rest) world (transform :: added) last

inductive Refuses (registry : Registry) (listing : Listing) (world : World) :
    Error → World → Prop
  | unread {e} {next : World} (hread : body listing.name world = (.error e, next)) :
      Refuses registry listing world e next
  | misnamed {text fault} {next : World} (hread : body listing.name world = (.ok text, next))
      (hfault : Transform.nameFault? [] listing.parameters = some fault) :
      Refuses registry listing world (.templateSyntax listing.name fault) next
  | unparsed {text e} {next : World} (hread : body listing.name world = (.ok text, next))
      (hnames : Transform.nameFault? [] listing.parameters = none)
      (hparse : Template.parse listing.name text = .error e) :
      Refuses registry listing world e next
  | taken {text} {transform : Transform} {next : World}
      (hread : body listing.name world = (.ok text, next))
      (hcreate : Transform.create listing text = .ok transform)
      (hname : listing.name ∈ registry.names) :
      Refuses registry listing world (.duplicateTemplate listing.name) next

inductive Adds (registry : Registry) (listings : List Listing) (world : World) :
    Except Error Nat → Registry → World → Prop
  | whole {added : List Transform} {last : World} (hadds : Creates body listings world added last) :
      Adds registry listings world (.ok listings.length) (registry.withAll added) last
  | upTo {before failing rest e} {added : List Transform} {between last : World}
      (hlistings : listings = before ++ failing :: rest)
      (hadds : Creates body before world added between)
      (hrefuses : Refuses body (registry.withAll added) failing between e last) :
      Adds registry listings world (.error e) (registry.withAll added) last

variable {body} {listing : Listing} {rest : List Listing} {world : World}

theorem Adds.nil : Adds body registry [] world (.ok 0) registry world := by
  have h : Adds body registry [] world _ _ world := .whole .nil
  rwa [withAll_nil] at h

theorem Adds.refused {e : Error} {last : World}
    (h : Refuses body registry listing world e last) :
    Adds body registry (listing :: rest) world (.error e) registry last := by
  rw [← withAll_nil registry] at h
  have hlistings : listing :: rest = [] ++ listing :: rest := rfl
  have hadds := Adds.upTo hlistings .nil h
  rwa [withAll_nil] at hadds

theorem Adds.cons {text : String} {outcome : Except Error Nat} {between last : World}
    (hread : body listing.name world = (.ok text, between))
    (hcreate : Transform.create listing text = .ok transform)
    (h : Adds body (registry.withAll [transform]) rest between outcome next last) :
    Adds body registry (listing :: rest) world (outcome.map (· + 1)) next last := by
  cases h with
  | whole hadds =>
      rw [withAll_withAll]
      exact .whole (.cons hread hcreate hadds)
  | upTo hlistings hadds hrefuses =>
      rw [withAll_withAll] at hrefuses ⊢
      exact .upTo (congrArg (listing :: ·) hlistings) (.cons hread hcreate hadds) hrefuses

theorem refuses_of_create {text : String} {e : Error} {between : World}
    (hread : body listing.name world = (.ok text, between))
    (hcreate : Transform.create listing text = .error e) :
    Refuses body registry listing world e between := by
  unfold Transform.create at hcreate
  split at hcreate
  case h_1 hfault =>
    cases hcreate
    exact .misnamed hread hfault
  case h_2 hnames =>
    split at hcreate
    case h_1 hparse =>
      cases hcreate
      exact .unparsed hread hnames hparse
    case h_2 => cases hcreate

theorem addAll_cons (count : Nat) (registry : Registry) :
    addAll body count registry (listing :: rest) world =
      match body listing.name world with
      | (.error e, between) => ((.error e, registry), between)
      | (.ok text, between) =>
          match registry.add listing text with
          | .error e => ((.error e, registry), between)
          | .ok next => addAll body (count + 1) next rest between := by
  rw [addAll, bind_apply]
  rcases body listing.name world with ⟨answer, between⟩
  cases answer with
  | error e => rfl
  | ok text =>
      simp only
      cases registry.add listing text <;> rfl

theorem exists_addAll (hwell : registry.WellFormed) (count : Nat) (listings : List Listing)
    (world : World) :
    ∃ outcome next last,
      addAll body count registry listings world = ((outcome.map (· + count), next), last) ∧
      Adds body registry listings world outcome next last ∧ next.WellFormed := by
  induction listings generalizing registry count world with
  | nil =>
      refine ⟨.ok 0, registry, world, ?_, Adds.nil, hwell⟩
      simp only [addAll, Except.map, Nat.zero_add]
      rfl
  | cons listing rest ih =>
      rw [addAll_cons]
      rcases hread : body listing.name world with ⟨answer, between⟩
      cases answer with
      | error e => exact ⟨.error e, registry, between, rfl, .refused (.unread hread), hwell⟩
      | ok text =>
          rcases add_cases registry listing text with
            ⟨e, hcreate, hadd⟩ | ⟨transform, hcreate, htaken, hadd⟩ |
            ⟨transform, hcreate, hnew, hadd⟩
          · refine ⟨.error e, registry, between, ?_,
              .refused (refuses_of_create hread hcreate), hwell⟩
            simp only [hadd]
            rfl
          · rw [Transform.name_of_create hcreate] at htaken hadd
            refine ⟨_, registry, between, ?_, .refused (.taken hread hcreate htaken), hwell⟩
            simp only [hadd]
            rfl
          · have hsound := Transform.isCreated_iff.mp ⟨listing, text, hcreate⟩
            rcases ih (hwell.withAll_singleton hsound hnew) (count + 1) between with
              ⟨outcome, next, last, haddAll, hadds, hnext⟩
            refine ⟨outcome.map (· + 1), next, last, ?_, hadds.cons hread hcreate, hnext⟩
            simp only [hadd, haddAll]
            cases outcome with
            | error e => rfl
            | ok n => simp only [Except.map, Nat.add_assoc, Nat.add_comm 1 count]

end Loading

/-!
## Calls
-/

/-- A call that may change a registry.  A manifest comes with what reads the template texts, which
may depend on the world and change it. -/
inductive Call (World : Type)
  | register (transform : Transform) (created : transform.IsCreated)
  | load (manifest : String) (body : String → StateM World (Except Error String))

namespace Call

variable {World : Type}

/-- How many transforms a call adds, or why it failed, and the registry behind it. -/
def perform (call : Call World) (registry : Registry) :
    StateM World (Except Error Nat × Registry) :=
  match call with
  | .register transform _ =>
      match registry.register transform with
      | .ok next => return (.ok 1, next)
      | .error e => return (.error e, registry)
  | .load manifest body => registry.loadManifest manifest body

def performAll (registry : Registry) : List (Call World) → StateM World Registry
  | [] => return registry
  | call :: calls => do
      let (_, next) ← call.perform registry
      performAll next calls

inductive Does (registry : Registry) (world : World) :
    Call World → Except Error Nat → Registry → World → Prop
  | registers {transform : Transform} {created : transform.IsCreated}
      (hnew : transform.name ∉ registry.names) :
      Does registry world (.register transform created) (.ok 1) (registry.withAll [transform]) world
  | repeats {transform : Transform} {created : transform.IsCreated}
      (htaken : transform.name ∈ registry.names) :
      Does registry world (.register transform created)
        (.error (.duplicateTemplate transform.name)) registry world
  | misreads {manifest body e} (hparse : Manifest.parse manifest = .error e) :
      Does registry world (.load manifest body) (.error e) registry world
  | loads {manifest body listings outcome} {next : Registry} {last : World}
      (hparse : Manifest.parse manifest = .ok listings)
      (hadds : Adds body registry listings world outcome next last) :
      Does registry world (.load manifest body) outcome next last

theorem exists_perform (hwell : registry.WellFormed) (call : Call World) (world : World) :
    ∃ outcome next last, call.perform registry world = ((outcome, next), last) ∧
      Does registry world call outcome next last ∧ next.WellFormed := by
  cases call with
  | register transform created =>
      simp only [perform]
      by_cases htaken : transform.name ∈ registry.names
      · rw [register_of_mem htaken]
        exact ⟨_, registry, world, rfl, .repeats htaken, hwell⟩
      · rw [register_of_notMem htaken]
        have hsound := Transform.isCreated_iff.mp created
        exact ⟨_, _, world, rfl, .registers htaken, hwell.withAll_singleton hsound htaken⟩
  | load manifest body =>
      simp only [perform, loadManifest]
      cases hparse : Manifest.parse manifest with
      | error e => exact ⟨_, registry, world, rfl, .misreads hparse, hwell⟩
      | ok listings =>
          rcases exists_addAll hwell 0 listings world with
            ⟨outcome, next, last, haddAll, hadds, hnext⟩
          refine ⟨outcome, next, last, ?_, .loads hparse hadds, hnext⟩
          simp only [haddAll]
          cases outcome <;> rfl

theorem Does.grows {call : Call World} {outcome : Except Error Nat} {world last : World}
    (h : Does registry world call outcome next last) : registry.transforms <+: next.transforms := by
  cases h with
  | registers => exact List.prefix_append _ _
  | repeats => exact List.prefix_refl _
  | misreads => exact List.prefix_refl _
  | loads hparse hadds => cases hadds <;> exact List.prefix_append _ _

theorem performAll_cons (registry : Registry) (call : Call World) (calls : List (Call World))
    (world : World) :
    performAll registry (call :: calls) world =
      performAll (call.perform registry world).1.2 calls (call.perform registry world).2 := rfl

theorem performAll_append (registry : Registry) (before after : List (Call World))
    (world : World) :
    performAll registry (before ++ after) world =
      performAll (performAll registry before world).1 after
        (performAll registry before world).2 := by
  induction before generalizing registry world with
  | nil => rfl
  | cons call before ih =>
      rw [List.cons_append, performAll_cons, performAll_cons, ih]

theorem wellFormed_performAll (hwell : registry.WellFormed) (calls : List (Call World))
    (world : World) :
    (performAll registry calls world).1.WellFormed ∧
      registry.transforms <+: (performAll registry calls world).1.transforms := by
  induction calls generalizing registry world with
  | nil => exact ⟨hwell, List.prefix_refl _⟩
  | cons call calls ih =>
      rcases exists_perform hwell call world with ⟨outcome, next, last, hperform, hdoes, hnext⟩
      rw [performAll_cons, hperform]
      rcases ih hnext last with ⟨hlater, hgrows⟩
      exact ⟨hlater, hdoes.grows.trans hgrows⟩

/-- Whatever calls are made on a registry that was empty, each of them does what it is for and only
adds at the end, and what a name stands for behind a call is what it stands for from then on. -/
theorem performAll_grows (before : List (Call World)) (call : Call World)
    (after : List (Call World)) (world : World) :
    ∃ start here outcome next there final last,
      performAll empty before world = (start, here) ∧
      call.perform start here = ((outcome, next), there) ∧
      performAll empty (before ++ call :: after) world = (final, last) ∧
      Does start here call outcome next there ∧
      next.names <+: final.names ∧
      (∀ transform ∈ next.transforms, final.lookup transform.name = .ok transform) ∧
      final.names.Nodup ∧
      ∀ transform ∈ final.transforms,
        final.lookup transform.name = .ok transform ∧ transform.Sound := by
  have hrun := performAll_append empty before (call :: after) world
  rcases hbefore : performAll empty before world with ⟨start, here⟩
  rw [hbefore] at hrun
  have hstart : start.WellFormed := by
    have h := (wellFormed_performAll wellFormed_empty before world).left
    rwa [hbefore] at h
  rcases exists_perform hstart call here with ⟨outcome, next, there, hperform, hdoes, hnext⟩
  rw [performAll_cons, hperform] at hrun
  rcases wellFormed_performAll hnext after there with ⟨hfinal, hgrows⟩
  rw [← hrun] at hfinal hgrows
  refine ⟨start, here, outcome, next, there, _, _, rfl, hperform, rfl, hdoes,
    hgrows.map Transform.name, ?_, hfinal.names_nodup, ?_⟩
  · intro transform hmem
    exact hfinal.lookup_name (hgrows.subset hmem)
  · intro transform hmem
    exact ⟨hfinal.lookup_name hmem, hfinal.sound transform hmem⟩

def noManifest : String :=
  "templates: none\n"

def copiesManifest : String :=
  "templates:\n- name: copy\n- name: copy\n"

def readCopy (_ : String) : StateM Unit (Except Error String) :=
  return .ok "SELECT * FROM \x7b\x7b source_table \x7d\x7d"

def misreading : Call Unit :=
  .load noManifest readCopy

def copying : Call Unit :=
  .load copiesManifest readCopy

/-- What is no manifest adds nothing.  Of two entries under one name the first is added and stays,
and the second is refused. -/
theorem performAll_copies :
    (misreading.perform empty ()).1.1 = .error (.config .badManifest) ∧
    ∃ start here outcome next there final last,
      performAll empty [misreading] () = (start, here) ∧ start.names = [] ∧
      copying.perform start here = ((outcome, next), there) ∧
      outcome = .error (.duplicateTemplate "copy") ∧ next.names = ["copy"] ∧
      performAll empty [misreading, copying, copying] () = (final, last) ∧
      final.names = ["copy"] ∧
      Does start here copying outcome next there ∧
      ∀ transform ∈ next.transforms, final.lookup transform.name = .ok transform := by
  constructor
  · decide +kernel
  · rcases performAll_grows [misreading] copying [copying] () with
      ⟨start, here, outcome, next, there, final, last, hstart, hperform, hfinal, hdoes, -, hlookup, -⟩
    have hempty : (performAll empty [misreading] ()).1.names = [] := by decide +kernel
    have hfails : (copying.perform (performAll empty [misreading] ()).1
        (performAll empty [misreading] ()).2).1.1 = .error (.duplicateTemplate "copy") := by
      decide +kernel
    have hadded : (copying.perform (performAll empty [misreading] ()).1
        (performAll empty [misreading] ()).2).1.2.names = ["copy"] := by
      decide +kernel
    have hkept : (performAll empty ([misreading] ++ copying :: [copying]) ()).1.names =
        ["copy"] := by
      decide +kernel
    rw [hstart] at hempty hfails hadded
    rw [hperform] at hfails hadded
    rw [hfinal] at hkept
    exact ⟨start, here, outcome, next, there, final, last, hstart, hempty, hperform, hfails, hadded,
      hfinal, hkept, hdoes, hlookup⟩

end Call
end Registry
end TransformChain
