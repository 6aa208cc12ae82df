import SkillLayer.Grouping
import SkillLayer.GraphBuilder.Build

/-! Assigning the built skills to communities: one layer of clusters over the
embeddings and one layer of first tags. -/

namespace SkillLayer.GraphBuilder

open Domain

inductive CommunitySource where
  | hdbscan
  | tag
deriving DecidableEq

def CommunitySource.asDbStr : CommunitySource → Str
  | .hdbscan => "hdbscan"
  | .tag => "tag"

structure CommunityAssignment where
  communityName : Str
  skillIds : List Str
  scope : ScopeType
  source : CommunitySource
deriving DecidableEq

structure HdbscanConfig where
  minClusterSize : Nat

/-- The clusterer: a label for every vector, `-1` for noise. -/
structure Hdbscan (F : Type) where
  cluster : Nat → List (List F) → Except Str (List Int)
  oneLabelEach : ∀ minClusterSize vectors labels,
    cluster minClusterSize vectors = .ok labels → labels.length = vectors.length

/-- What the assignment takes from elsewhere: Unicode classes, the order of two term
scores `tf * idf` for a corpus size and pairs `(tf, df)`, the clusterer and the
iteration orders of its maps. -/
structure CommunityServices (F : Type) where
  isAlphanumeric : Char → Bool
  compareScores : Nat → Nat × Nat → Nat × Nat → Ordering
  hdbscan : Hdbscan F
  termOrder : HashOrder (Str × List Unit)
  tagOrder : HashOrder ((Str × Str) × List Str)

variable {F : Type} (services : CommunityServices F)

def scopeFromDebugStr (scopeKey : Str) : ScopeType :=
  if scopeKey = "Project" then .project
  else if scopeKey = "Global" then .global
  else .team

def scopePrefixFor : ScopeType → Str
  | .project => "project"
  | .global => "global"
  | .team => "team"

def communityName (scope : ScopeType) (suffix : Str) : Str :=
  scopePrefixFor scope ++ "-" ++ suffix

/-! ### Cluster labels -/

def stopwords : List Str :=
  ["the", "and", "for", "are", "but", "not", "you", "all", "any", "can", "had", "has", "her",
    "was", "one", "our", "out", "use", "uses", "used", "using", "with", "this", "that", "from",
    "into", "your", "them", "they", "then", "than", "when", "what", "which", "while", "will",
    "would", "should", "could", "have", "how", "its", "via", "per", "etc", "such", "also",
    "each", "more", "most", "some", "only", "over", "under", "between", "about", "after",
    "before", "during"]

def isStopword (term : Str) : Bool := stopwords.contains term

def tokenize (text : Str) : List Str :=
  ((((text.splitOnP fun c => !services.isAlphanumeric c).filter fun raw => 3 ≤ Str.byteLength raw).map
    Str.toAsciiLowercase).filter fun term => !term.all Char.isDigit).filter fun term => !isStopword term

/-- The terms of a skill's subunit text, one for each occurrence. -/
def skillTerms (skill : BuiltSkill F) : List Str :=
  skill.subunits.flatMap fun subunit =>
    tokenize services subunit.title ++ tokenize services subunit.content

/-- How many skills contain the term. -/
def documentFrequency (skills : List (BuiltSkill F)) (term : Str) : Nat :=
  (skills.filter fun skill => term ∈ skillTerms services skill).length

def rankedBefore (corpusSize : Nat) (left right : Str × Nat × Nat) : Bool :=
  match services.compareScores corpusSize left.2 right.2 with
  | .gt => true
  | .eq => Str.le left.1 right.1
  | .lt => false

/-- The terms of a cluster, best score first and alphabetically among equal scores. -/
def scoreClusterTerms (members skills : List (BuiltSkill F)) : List Str :=
  let termFreq := services.termOrder.arrange
    (group ((members.flatMap (skillTerms services)).map fun term => (term, ())))
  let scored := termFreq.map fun entry =>
    (entry.1, (entry.2.length, documentFrequency services skills entry.1))
  (scored.insertionSort fun left right => rankedBefore services skills.length left right = true).map
    Prod.fst

def clusterCore (scored : List Str) (clusterLabel : Int) : Str :=
  if scored.isEmpty then "cluster-" ++ Str.ofInt clusterLabel
  else "cluster-" ++ Str.join "-" (scored.take 2)

def sortedIds (members : List (BuiltSkill F)) : List Str := Str.sorted (members.map BuiltSkill.id)

/-- Collision resolution 1: append a further distinctive term. -/
def extendLabel (furtherTerms usedNames : List Str) (label : Str) : Str :=
  if label ∈ usedNames then
    match furtherTerms.find? fun term => label ++ "-" ++ term ∉ usedNames with
    | some term => label ++ "-" ++ term
    | none => label
  else label

/-- Collision resolution 2: append the smallest member id. -/
def anchorLabel (anchor : Option Str) (usedNames : List Str) (label : Str) : Str :=
  if label ∈ usedNames then
    match anchor with
    | some anchor => label ++ "-" ++ anchor
    | none => label
  else label

/-- The name of a cluster in view of the names used so far. -/
def deriveClusterLabel (skills : List (BuiltSkill F)) (scope : ScopeType) (clusterLabel : Int)
    (members : List (BuiltSkill F)) (usedNames : List Str) : Str :=
  let scored := scoreClusterTerms services members skills
  anchorLabel (sortedIds members).head? usedNames
    (extendLabel (scored.drop 2) usedNames (communityName scope (clusterCore scored clusterLabel)))

/-! ### The cluster layer -/

/-- The clusters of one scope in label order, and the skills outside of them. -/
structure ScopeClusters (F : Type) where
  scope : ScopeType
  clusters : List (Int × List (BuiltSkill F))
  noise : List (BuiltSkill F)

def clusterScope (config : HdbscanConfig) (scopeKey : Str) (members : List (BuiltSkill F)) :
    Except Str (ScopeClusters F) :=
  if members.length < config.minClusterSize then
    .ok ⟨scopeFromDebugStr scopeKey, [], members⟩
  else
    match services.hdbscan.cluster config.minClusterSize (members.map BuiltSkill.embedding) with
    | .error error =>
      .error ("HDBSCAN clustering failed for scope '" ++ scopeKey ++ "': " ++ error)
    | .ok labels =>
      let clusters := (group (labels.zip members)).insertionSort fun left right => left.1 ≤ right.1
      .ok ⟨scopeFromDebugStr scopeKey, clusters.filter fun cluster => cluster.1 ≠ -1,
        (clusters.filter fun cluster => cluster.1 = -1).flatMap Prod.snd⟩

/-- Name the clusters of a scope one after the other. -/
def nameClusters (skills : List (BuiltSkill F)) (scope : ScopeType) :
    List (Int × List (BuiltSkill F)) → List Str → List CommunityAssignment × List Str
  | [], usedNames => ([], usedNames)
  | (label, members) :: rest, usedNames =>
    let name := deriveClusterLabel services skills scope label members usedNames
    let later := nameClusters skills scope rest (usedNames ++ [name])
    (⟨name, sortedIds members, scope, .hdbscan⟩ :: later.1, later.2)

def unclustered (plan : ScopeClusters F) : List CommunityAssignment :=
  if plan.noise.isEmpty then []
  else [⟨communityName plan.scope "unclustered", sortedIds plan.noise, plan.scope, .hdbscan⟩]

def nameScopes (skills : List (BuiltSkill F)) :
    List (ScopeClusters F) → List Str → List CommunityAssignment
  | [], _ => []
  | plan :: rest, usedNames =>
    let named := nameClusters services skills plan.scope plan.clusters usedNames
    named.1 ++ unclustered plan ++ nameScopes skills rest named.2

/-- The skills of each scope, in the order of the scopes' texts. -/
def skillsByScope (skills : List (BuiltSkill F)) : List (Str × List (BuiltSkill F)) :=
  (group (skills.map fun skill => (skill.scopeType.debug, skill))).insertionSort fun left right =>
    Str.le left.1 right.1 = true

def emptyEmbedding (skill : BuiltSkill F) : Str :=
  "HDBSCAN clustering requires embeddings but skill '" ++ skill.id ++
    "' has an empty embedding vector — ensure build_skills_from_scope_roots completes " ++
    "the embedding step before calling assign_communities"

def planScopes (skills : List (BuiltSkill F)) (config : HdbscanConfig) :
    Except Str (List (ScopeClusters F)) :=
  collect (fun entry => (clusterScope services config entry.1 entry.2).map fun plan => [plan])
    (skillsByScope skills)

def clusterByHdbscan (skills : List (BuiltSkill F)) (config : HdbscanConfig) :
    Except Str (List CommunityAssignment) :=
  match skills.find? fun skill => skill.embedding.isEmpty with
  | some skill => .error (emptyEmbedding skill)
  | none => (planScopes services skills config).map fun plans => nameScopes services skills plans []

/-! ### The tag layer -/

def firstTag (skill : BuiltSkill F) : Str := skill.tags.head?.getD "untagged"

def clusterByFirstTag (skills : List (BuiltSkill F)) : List CommunityAssignment :=
  let grouped := services.tagOrder.arrange
    (group (skills.map fun skill => ((skill.scopeType.debug, firstTag skill), skill.id)))
  let assignments := grouped.map fun entry =>
    let scope := scopeFromDebugStr entry.1.1
    ⟨communityName scope (Str.toAsciiLowercase entry.1.2), Str.sorted entry.2, scope, .tag⟩
  assignments.insertionSort fun left right => Str.le left.communityName right.communityName = true

def assignmentLe (left right : CommunityAssignment) : Bool :=
  if left.communityName = right.communityName then Str.le left.source.asDbStr right.source.asDbStr
  else Str.le left.communityName right.communityName

def assignCommunities (skills : List (BuiltSkill F)) (config : HdbscanConfig) :
    Except Str (List CommunityAssignment) :=
  (clusterByHdbscan services skills config).map fun hdbscanAssignments =>
    (hdbscanAssignments ++ clusterByFirstTag services skills).insertionSort fun left right =>
      assignmentLe left right = true

end SkillLayer.GraphBuilder
