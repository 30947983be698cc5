import ComponentStyles.Pass.Collection
import ComponentStyles.Proofs.Pass.Demand

/-!
A pass as one walk over the style tags of its components.

The classes, their documents and the tags of each document are three nested loops, with a log
that is entered and left on the way.  Here they are one list of tags, resolved one after the
other.
-/

namespace ComponentStyles

def Project.sitesOf (project : Project) (style : StyleTagSettings) (declared : ComponentClass) :
    List StyleSite :=
  match project.backingDocument? declared with
  | none => []
  | some document => (style.tagsOf document).map fun tag => { document, tag }

def Project.styleSites (project : Project) (style : StyleTagSettings)
    (classes : List ComponentClass) : List StyleSite :=
  classes.flatMap (project.sitesOf style)

def StyleSite.problem (site : StyleSite) (invalid : InvalidProperty) : Problem :=
  { file := site.document.file, line := invalid.location.line, message := invalid.message }

variable {σ : Type}

namespace ResolutionContext

def resolveSites (context : ResolutionContext σ) (sites : List StyleSite)
    (resolution : Resolution σ) (problems : Array Problem) :
    Except PassFailure Unit × Resolution σ × Array Problem :=
  match sites with
  | [] => (.ok (), resolution, problems)
  | site :: rest =>
      match context.resolve site.document site.tag resolution with
      | (.ok _, after) => context.resolveSites rest after problems
      | (.error (.property invalid), after) =>
          context.resolveSites rest after (problems.push (site.problem invalid))
      | (.error failure, after) => (.error failure, after, problems)

section One

variable {context : ResolutionContext σ} {site : StyleSite} {resolution after : Resolution σ}

theorem resolveSites_ok {made : Option Nat}
    (resolved : context.resolve site.document site.tag resolution = (.ok made, after))
    (rest : List StyleSite) (problems : Array Problem) :
    context.resolveSites (site :: rest) resolution problems =
      context.resolveSites rest after problems := by
  simp only [resolveSites, resolved]

theorem resolveSites_property {invalid : InvalidProperty}
    (resolved : context.resolve site.document site.tag resolution =
      (.error (.property invalid), after))
    (rest : List StyleSite) (problems : Array Problem) :
    context.resolveSites (site :: rest) resolution problems =
      context.resolveSites rest after (problems.push (site.problem invalid)) := by
  simp only [resolveSites, resolved]

theorem resolveSites_failure {failure : PassFailure}
    (resolved : context.resolve site.document site.tag resolution = (.error failure, after))
    (fatal : ∀ invalid, failure ≠ .property invalid) (rest : List StyleSite)
    (problems : Array Problem) :
    context.resolveSites (site :: rest) resolution problems =
      (.error failure, after, problems) := by
  cases failure with
  | property invalid => exact absurd rfl (fatal invalid)
  | sdk fault => simp only [resolveSites, resolved]
  | host failure => simp only [resolveSites, resolved]
  | commitWait => simp only [resolveSites, resolved]
  | severalFragments count hosting => simp only [resolveSites, resolved]
  | strayShreds fragment count hosting => simp only [resolveSites, resolved]

end One

theorem resolveSites_append (context : ResolutionContext σ) (sites others : List StyleSite)
    (resolution : Resolution σ) (problems : Array Problem) :
    context.resolveSites (sites ++ others) resolution problems =
      match context.resolveSites sites resolution problems with
      | (.ok _, after, found) => context.resolveSites others after found
      | (.error failure, after, found) => (.error failure, after, found) := by
  induction sites generalizing resolution problems with
  | nil => rfl
  | cons site rest inductionHypothesis =>
      simp only [List.cons_append, resolveSites]
      cases context.resolve site.document site.tag resolution with
      | mk answer after =>
          cases answer with
          | ok made => exact inductionHypothesis after problems
          | error failure =>
              cases failure with
              | property invalid =>
                  exact inductionHypothesis after (problems.push (site.problem invalid))
              | sdk fault => rfl
              | host failure => rfl
              | commitWait => rfl
              | severalFragments count hosting => rfl
              | strayShreds fragment count hosting => rfl

theorem resolveSites_keeps {context : ResolutionContext σ} (holds : Resolution σ → Prop)
    (kept : ∀ (site : StyleSite) (resolution : Resolution σ), holds resolution →
      holds (context.resolve site.document site.tag resolution).2)
    (sites : List StyleSite) {resolution : Resolution σ} (start : holds resolution)
    (problems : Array Problem) : holds (context.resolveSites sites resolution problems).2.1 := by
  induction sites generalizing resolution problems with
  | nil => exact start
  | cons site rest inductionHypothesis =>
      have first := kept site resolution start
      cases resolved : context.resolve site.document site.tag resolution with
      | mk answer after =>
          rw [resolved] at first
          cases answer with
          | ok made =>
              rw [resolveSites_ok resolved]
              exact inductionHypothesis first problems
          | error failure =>
              by_cases authored : ∃ invalid, failure = .property invalid
              · obtain ⟨invalid, same⟩ := authored
                rw [same] at resolved
                rw [resolveSites_property resolved]
                exact inductionHypothesis first _
              · have fatal : ∀ invalid, failure ≠ .property invalid :=
                  fun invalid same => authored ⟨invalid, same⟩
                rw [resolveSites_failure resolved fatal]
                exact first

def Follows {α : Type} (reply : Except PassFailure α × PassState σ)
    (walk : Except PassFailure Unit × Resolution σ × Array Problem) : Prop :=
  reply.1.map (fun _ => ()) = walk.1 ∧ reply.2.resolution = walk.2.1 ∧
    reply.2.log.problems = walk.2.2

theorem resolveTags_follows (context : ResolutionContext σ) (document : Document)
    (tags : List Element) (state : PassState σ) (made : Nat)
    (entered : state.log.current = some document.file) :
    Follows (context.resolveTags document tags state made)
      (context.resolveSites (tags.map fun tag => { document, tag }) state.resolution
        state.log.problems) := by
  induction tags generalizing state made with
  | nil => exact ⟨rfl, rfl, rfl⟩
  | cons tag rest inductionHypothesis =>
      simp only [List.map_cons, resolveTags, resolveSites]
      cases context.resolve document tag state.resolution with
      | mk answer after =>
          cases answer with
          | ok handle? =>
              cases handle? with
              | none => exact inductionHypothesis { state with resolution := after } made entered
              | some handle =>
                  exact inductionHypothesis { state with resolution := after } (made + 1) entered
          | error failure =>
              cases failure with
              | property invalid =>
                  have put : (state.log.add invalid).problems =
                      state.log.problems.push (StyleSite.problem { document, tag } invalid) := by
                    simp only [ProblemLog.add, ProblemLog.record, StyleSite.problem, entered,
                      Option.getD_some]
                  have rest := inductionHypothesis
                    { resolution := after, log := state.log.add invalid } made entered
                  rw [put] at rest
                  exact rest
              | sdk fault => exact ⟨rfl, rfl, rfl⟩
              | host failure => exact ⟨rfl, rfl, rfl⟩
              | commitWait => exact ⟨rfl, rfl, rfl⟩
              | severalFragments count hosting => exact ⟨rfl, rfl, rfl⟩
              | strayShreds fragment count hosting => exact ⟨rfl, rfl, rfl⟩

theorem extract_follows (context : ResolutionContext σ) (style : StyleTagSettings)
    (declared : ComponentClass) (state : PassState σ) :
    Follows (context.extract style declared state)
      (context.resolveSites (context.project.sitesOf style declared) state.resolution
        state.log.problems) := by
  unfold extract Project.sitesOf
  cases context.project.backingDocument? declared with
  | none => exact ⟨rfl, rfl, rfl⟩
  | some document =>
      exact context.resolveTags_follows document (style.tagsOf document)
        { state with log := state.log.enter document.file } 0 rfl

/-- A pass over classes is a walk over their style tags. -/
theorem extractAll_follows (context : ResolutionContext σ) (style : StyleTagSettings)
    (classes : List ComponentClass) (state : PassState σ) :
    Follows (context.extractAll style classes state)
      (context.resolveSites (context.project.styleSites style classes) state.resolution
        state.log.problems) := by
  induction classes generalizing state with
  | nil => exact ⟨rfl, rfl, rfl⟩
  | cons declared rest inductionHypothesis =>
      have first := context.extract_follows style declared state
      simp only [Project.styleSites, List.flatMap_cons, resolveSites_append, extractAll]
      cases extracted : context.extract style declared state with
      | mk answer after =>
          rw [extracted] at first
          obtain ⟨ended, resolved, problems⟩ := first
          cases answer with
          | ok made =>
              have walked : context.resolveSites (context.project.sitesOf style declared)
                  state.resolution state.log.problems =
                    (.ok (), after.resolution, after.log.problems) :=
                Prod.ext ended.symm (Prod.ext resolved.symm problems.symm)
              rw [walked]
              exact inductionHypothesis after
          | error failure =>
              have walked : context.resolveSites (context.project.sitesOf style declared)
                  state.resolution state.log.problems =
                    (.error failure, after.resolution, after.log.problems) :=
                Prod.ext ended.symm (Prod.ext resolved.symm problems.symm)
              rw [walked]
              exact ⟨rfl, rfl, rfl⟩

end ResolutionContext

theorem firstOfEachName_eq (seen : List ClassName) (classes : List ComponentClass) :
    firstOfEachName seen classes =
      (classes.filter fun declared => declared.name ∉ seen).eraseDupsBy
        fun later earlier => later.name == earlier.name := by
  induction classes generalizing seen with
  | nil => rfl
  | cons declared rest inductionHypothesis =>
      by_cases known : declared.name ∈ seen
      · rw [firstOfEachName, if_pos known, inductionHypothesis,
          List.filter_cons_of_neg (by simpa using known)]
      · rw [firstOfEachName, if_neg known, inductionHypothesis,
          List.filter_cons_of_pos (by simpa using known), List.eraseDupsBy_cons,
          List.filter_filter]
        have dropped : ∀ other : ComponentClass,
            decide (other.name ∉ declared.name :: seen) =
              (decide ((other.name == declared.name) = false) && decide (other.name ∉ seen)) := by
          intro other
          simp
        simp only [dropped]

/-- The components of a module are what the searches find, each name where it comes first. -/
theorem Project.components_eq (project : Project) (module : ModuleName)
    (bases : List ComponentClass) :
    project.components module bases =
      (bases.flatMap fun base => project.findInheritors base true (.own module)).eraseDupsBy
        fun later earlier => later.name == earlier.name := by
  rw [Project.components, firstOfEachName_eq]
  congr 1
  exact List.filter_eq_self.mpr fun declared _ => by simp

end ComponentStyles
