import ComponentStyles.Artifact.Basic
import ComponentStyles.Proofs.Pass.Traversal

/-!
What a pass makes, told tag by tag.

What becomes of a tag follows from the tags in front of it, the demand of each and the verdict
on each stylesheet.  Nothing is remembered on the way but the state of the compiler, which may
decide the bytes.
-/

namespace ComponentStyles

abbrev SheetReply :=
  Except HostFailure (List UInt8)

/-- How a compiler takes a stylesheet: it gives bytes, finds that the sheet does not compile, or
fails itself. -/
inductive Verdict where
  | compiles
  | rejected
  | aborted
  deriving DecidableEq, Repr

def Verdict.of : SheetReply → Verdict
  | .ok _ => .compiles
  | .error (.stylesheet _ _) => .rejected
  | .error _ => .aborted

variable {σ : Type}

/-- The verdict on a stylesheet is the same in every state of the compiler. -/
def StyleCompiler.JudgesBy (compiler : StyleCompiler σ) (module : ModuleName)
    (verdict : Document → Verdict) : Prop :=
  ∀ (document : Document) (state : σ),
    Verdict.of (compiler.compile document module state).1 = verdict document

def dataOf : Option SheetReply → List UInt8
  | some (.ok data) => data
  | _ => []

def rejectionOf : Option SheetReply → List String
  | some (.error (.stylesheet file reason)) => [file, reason]
  | _ => []

def StyleCompiler.reply (compiler : StyleCompiler σ) (module : ModuleName)
    (asked : Option Document) (state : σ) : Option SheetReply × σ :=
  match asked with
  | none => (none, state)
  | some sheet =>
      let answer := compiler.compile sheet module state
      (some answer.1, answer.2)

def StyleCompiler.replies (compiler : StyleCompiler σ) (module : ModuleName)
    (asked : List (Option Document)) (state : σ) :
    List (Option SheetReply) × σ :=
  match asked with
  | [] => ([], state)
  | first :: rest =>
      let answer := compiler.reply module first state
      let later := compiler.replies module rest answer.2
      (answer.1 :: later.1, later.2)

structure StyleStop where
  earlier : List StyleSite
  site : StyleSite

def stopsBehind (earlier : List StyleSite) : List StyleSite → List StyleStop
  | [] => []
  | site :: rest => { earlier, site } :: stopsBehind (earlier ++ [site]) rest

theorem stopsBehind_append (earlier sites others : List StyleSite) :
    stopsBehind earlier (sites ++ others) =
      stopsBehind earlier sites ++ stopsBehind (earlier ++ sites) others := by
  induction sites generalizing earlier with
  | nil => rw [List.append_nil]; rfl
  | cons site rest inductionHypothesis =>
      simp only [List.cons_append, stopsBehind, inductionHypothesis, List.append_assoc,
        List.nil_append]

theorem map_site_stopsBehind (earlier sites : List StyleSite) :
    (stopsBehind earlier sites).map StyleStop.site = sites := by
  induction sites generalizing earlier with
  | nil => rfl
  | cons site rest inductionHypothesis =>
      rw [stopsBehind, List.map_cons, inductionHypothesis]

theorem length_stopsBehind (earlier sites : List StyleSite) :
    (stopsBehind earlier sites).length = sites.length := by
  induction sites generalizing earlier with
  | nil => rfl
  | cons site rest inductionHypothesis =>
      simp only [stopsBehind, List.length_cons, inductionHypothesis]

structure ArtifactSummary where
  file : FileId
  kind : String
  data : List UInt8
  users : List FileId
  deriving DecidableEq, Repr

def Artifact.summary (artifact : Artifact) : ArtifactSummary :=
  { file := artifact.file
    kind := artifact.origin.kindName
    data := artifact.data
    users := artifact.users }

def SheetDemand.identity? : SheetDemand → Option FileId
  | shared sheet => some sheet.file
  | _ => none

/-- What a pass is decided by: the demand of each tag and the verdict on each stylesheet. -/
structure PassReference where
  demand : StyleSite → SheetDemand
  verdict : Document → Verdict

namespace PassReference

variable (reference : PassReference)

def refersTo (identity : FileId) (site : StyleSite) : Bool :=
  (reference.demand site).identity? == some identity

def owners (sites : List StyleSite) (identity : FileId) : List FileId :=
  ((sites.filter (reference.refersTo identity)).map fun site => site.document.file).eraseDups

def aborts (site : StyleSite) : Bool :=
  match reference.demand site with
  | .broken _ => true
  | .shared sheet => reference.verdict sheet = .aborted
  | .embedded sheet => reference.verdict sheet = .aborted
  | _ => false

/-- The stylesheet that the compiler is asked for: any in the body of a tag, and one of its own
unless it compiled for a tag in front. -/
def asked? (stop : StyleStop) : Option Document :=
  match reference.demand stop.site with
  | .embedded sheet => some sheet
  | .shared sheet =>
      if reference.verdict sheet = .compiles ∧
          stop.earlier.any (reference.refersTo sheet.file) = true then none
      else some sheet
  | _ => none

/-- The artifact at the place of a tag: one for each body that compiles, and one for the first
tag of each stylesheet of its own that compiles, with the owners of all its tags. -/
def artifact? (sites : List StyleSite) (stop : StyleStop)
    (reply : Option SheetReply) : Option ArtifactSummary :=
  match reference.demand stop.site with
  | .embedded sheet =>
      if reference.verdict sheet = .compiles then
        some
          { file := Project.hostingFile sheet
            kind := "inline"
            data := dataOf reply
            users := [] }
      else none
  | .shared sheet =>
      if reference.verdict sheet = .compiles ∧
          stop.earlier.any (reference.refersTo sheet.file) = false then
        some
          { file := sheet.file
            kind := "external"
            data := dataOf reply
            users := reference.owners sites sheet.file }
      else none
  | _ => none

def problem? (stop : StyleStop) (reply : Option SheetReply) :
    Option Problem :=
  let rejection := stop.site.problem (stop.site.invalid Message.notCompiledKey (rejectionOf reply))
  match reference.demand stop.site with
  | .unusable invalid => some (stop.site.problem invalid)
  | .shared sheet => if reference.verdict sheet = .rejected then some rejection else none
  | .embedded sheet => if reference.verdict sheet = .rejected then some rejection else none
  | _ => none

def requests (earlier sites : List StyleSite) : List (Option Document) :=
  (stopsBehind earlier sites).map reference.asked?

def artifacts (sites : List StyleSite)
    (replies : List (Option SheetReply)) : List ArtifactSummary :=
  ((stopsBehind [] sites).zip replies).filterMap fun turn =>
    reference.artifact? sites turn.1 turn.2

def problems (earlier sites : List StyleSite)
    (replies : List (Option SheetReply)) : List Problem :=
  ((stopsBehind earlier sites).zip replies).filterMap fun turn =>
    reference.problem? turn.1 turn.2

theorem artifacts_of_reply (sites : List StyleSite) (reply : Document → SheetReply) :
    reference.artifacts sites ((reference.requests [] sites).map (Option.map reply)) =
      (stopsBehind [] sites).filterMap fun stop =>
        reference.artifact? sites stop ((reference.asked? stop).map reply) := by
  unfold artifacts requests
  rw [List.map_map, ← List.map_prod_left_eq_zip, List.filterMap_map]
  rfl

theorem problems_of_reply (earlier sites : List StyleSite) (reply : Document → SheetReply) :
    reference.problems earlier sites ((reference.requests earlier sites).map (Option.map reply)) =
      (stopsBehind earlier sites).filterMap fun stop =>
        reference.problem? stop ((reference.asked? stop).map reply) := by
  unfold problems requests
  rw [List.map_map, ← List.map_prod_left_eq_zip, List.filterMap_map]
  rfl

theorem problems_cons (earlier : List StyleSite) (site : StyleSite) (rest : List StyleSite)
    (reply : Option SheetReply) (replies : List (Option SheetReply)) :
    reference.problems earlier (site :: rest) (reply :: replies) =
      (reference.problem? { earlier, site } reply).toList ++
        reference.problems (earlier ++ [site]) rest replies := by
  unfold problems
  rw [stopsBehind, List.zip_cons_cons, List.filterMap_cons]
  cases reference.problem? { earlier, site } reply <;> rfl

def addOwner (owners : List FileId) (user : FileId) : List FileId :=
  if user ∈ owners then owners else owners ++ [user]

def gain (identity? : Option FileId) (user : FileId) (summary : ArtifactSummary) :
    ArtifactSummary :=
  if summary.kind = "external" ∧ identity? = some summary.file then
    { summary with users := addOwner summary.users user }
  else summary

theorem map_gain_none (user : FileId) (summaries : List ArtifactSummary) :
    summaries.map (gain none user) = summaries := by
  have unchanged : ∀ summary ∈ summaries, gain none user summary = summary := by
    intro summary _inside
    unfold gain
    rw [if_neg]
    intro both
    cases both.2
  rw [List.map_congr_left unchanged, List.map_id']

theorem eraseDups_concat (files : List FileId) (file : FileId) :
    (files ++ [file]).eraseDups = addOwner files.eraseDups file := by
  rw [List.eraseDups_append]
  unfold addOwner
  by_cases known : file ∈ files
  · have dropped : [file].removeAll files = [] := by simp [List.removeAll, known]
    rw [dropped, if_pos (List.mem_eraseDups.mpr known), List.eraseDups_nil, List.append_nil]
  · have kept : [file].removeAll files = [file] := by simp [List.removeAll, known]
    rw [kept, if_neg fun member => known (List.mem_eraseDups.mp member)]
    rfl

theorem owners_concat (sites : List StyleSite) (site : StyleSite) (identity : FileId) :
    reference.owners (sites ++ [site]) identity =
      if reference.refersTo identity site = true then
        addOwner (reference.owners sites identity) site.document.file
      else reference.owners sites identity := by
  unfold owners
  rw [List.filter_append, List.map_append]
  by_cases refers : reference.refersTo identity site = true
  · rw [if_pos refers, List.filter_cons_of_pos refers]
    exact eraseDups_concat _ site.document.file
  · rw [if_neg refers, List.filter_cons_of_neg refers]
    simp only [List.filter_nil, List.map_nil, List.append_nil]

theorem owners_eq_nil {sites : List StyleSite} {identity : FileId}
    (unknown : sites.any (reference.refersTo identity) = false) :
    reference.owners sites identity = [] := by
  have none : sites.filter (reference.refersTo identity) = [] := by
    rw [List.filter_eq_nil_iff]
    exact List.any_eq_false.mp unknown
  unfold owners
  rw [none]
  rfl

/-- One more tag behind the others adds its document to the users of its stylesheet. -/
theorem artifact?_concat (sites : List StyleSite) (site : StyleSite) (stop : StyleStop)
    (reply : Option SheetReply) :
    reference.artifact? (sites ++ [site]) stop reply =
      (reference.artifact? sites stop reply).map
        (gain (reference.demand site).identity? site.document.file) := by
  unfold artifact?
  cases reference.demand stop.site with
  | nothing => rfl
  | unusable invalid => rfl
  | broken failure => rfl
  | embedded sheet =>
      by_cases compiles : reference.verdict sheet = .compiles
      · simp only [compiles, if_true, Option.map_some, gain]
        simp
      · simp only [compiles, if_false, Option.map_none]
  | shared sheet =>
      by_cases first : reference.verdict sheet = .compiles ∧
          stop.earlier.any (reference.refersTo sheet.file) = false
      · have refers : reference.refersTo sheet.file site = true ↔
            (reference.demand site).identity? = some sheet.file := by
          rw [refersTo, beq_iff_eq]
        simp only [first, and_self, if_true, Option.map_some, gain, owners_concat, refers, true_and]
        split <;> rfl
      · simp only [first, if_false, Option.map_none]

theorem artifacts_concat (sites : List StyleSite) (site : StyleSite)
    {replies : List (Option SheetReply)} (aligned : replies.length = sites.length)
    (reply : Option SheetReply) :
    reference.artifacts (sites ++ [site]) (replies ++ [reply]) =
      (reference.artifacts sites replies).map
          (gain (reference.demand site).identity? site.document.file) ++
        (reference.artifact? (sites ++ [site]) { earlier := sites, site } reply).toList := by
  have lengths : (stopsBehind [] sites).length = replies.length := by
    rw [length_stopsBehind, aligned]
  unfold artifacts
  rw [stopsBehind_append, List.nil_append, List.zip_append lengths, List.filterMap_append]
  congr 1
  rw [List.map_filterMap]
  congr 1
  funext turn
  exact reference.artifact?_concat sites site turn.1 turn.2

end PassReference

end ComponentStyles
