import SkillLayer.Domain.LifecyclePolicy

/-! The text of a pending draft: YAML frontmatter and a markdown body. -/

namespace SkillLayer.SessionExtractor

open Domain

inductive WriterError where
  | invalidRepoPath (message : Str)
  | scopeResolution (message : Str)
  | writeFailure (path message : Str)
  | frontmatterSerialization (message : Str)
  | batchValidation (message : Str)
  | rejectedTombstonePresent (path : Str)
  | writeDenied (message : Str)
  | missingConfig (message : Str)
deriving DecidableEq

/-- The frontmatter payload of a pending proposal. -/
structure PendingDraftFrontmatter where
  name : Str
  description : Str
  tags : List Str
  origin : Str
  sourceSessionId : Str
  sourceProvider : Str
  createdAt : Str
  warningAt : Str
  expiresAt : Str
  generality : Str
  generalityRationale : Str
deriving DecidableEq

/-- The library calls of the renderer: the timestamp format and the YAML serialiser. -/
structure DraftFormat where
  toRfc3339 : Timestamp → Str
  toYaml : PendingDraftFrontmatter → Except Str Str

def normalizeGenerality (raw : Option Str) : Str :=
  if raw = some "project".toList then "project"
  else if raw = some "general".toList then "general"
  else "uncertain"

def slugifySkillName (name : Str) : Str :=
  let dashed := (Str.toAsciiLowercase name).map fun ch => if ch.isAlphanum then ch else '-'
  let slug := Str.join ['-'] ((Str.splitOn '-' dashed).filter fun segment => !segment.isEmpty)
  if slug.isEmpty then "session-extracted-skill" else slug

def draftFrontmatter (format : DraftFormat) (createdAt : Timestamp)
    (candidate : ExtractedSkillCandidate) (sourceSessionId providerName : Str) :
    PendingDraftFrontmatter where
  name := candidate.name
  description := candidate.description
  tags := candidate.tags
  origin := "session_extraction"
  sourceSessionId := sourceSessionId
  sourceProvider := providerName
  createdAt := format.toRfc3339 createdAt
  warningAt := format.toRfc3339 (pendingDefaultWarningAt createdAt)
  expiresAt := format.toRfc3339 (pendingDefaultExpiresAt createdAt)
  generality := normalizeGenerality candidate.generality
  generalityRationale := candidate.generalityRationale.getD []

def serializeFrontmatter (format : DraftFormat) (frontmatter : PendingDraftFrontmatter) :
    Except WriterError Str :=
  match format.toYaml frontmatter with
  | .error error => .error (.frontmatterSerialization error)
  | .ok serialized => .ok ((Str.stripPrefix? "---\n" serialized).getD serialized)

/-- A heading with one bullet per line; nothing for an empty list. -/
def sectionText (heading : Str) (lines : List Str) : Str :=
  if lines.isEmpty then []
  else "## ".toList ++ heading ++ ['\n'] ++
    (lines.flatMap fun line => "- ".toList ++ line ++ ['\n']) ++ ['\n']

def draftBody (candidate : ExtractedSkillCandidate) : Str :=
  ['\n'] ++ "# ".toList ++ candidate.name ++ ['\n', '\n'] ++ candidate.description ++ ['\n', '\n'] ++
    sectionText "Procedures" candidate.procedures ++ sectionText "Conventions" candidate.conventions ++
    sectionText "Assets" candidate.assets

/-- Close the last line of a text that does not end with a newline. -/
def terminated (text : Str) : Str := if text.getLast? = some '\n' then text else text ++ ['\n']

def renderPendingMarkdown (format : DraftFormat) (createdAt : Timestamp)
    (candidate : ExtractedSkillCandidate) (sourceSessionId providerName : Str) :
    Except WriterError Str := do
  let frontmatterYaml ← serializeFrontmatter format
    (draftFrontmatter format createdAt candidate sourceSessionId providerName)
  return "---\n".toList ++ terminated frontmatterYaml ++ "---\n".toList ++ draftBody candidate

end SkillLayer.SessionExtractor
