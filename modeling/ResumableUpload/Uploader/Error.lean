import ResumableUpload.Source.Range

/-!
# Errors of an uploader

What the caller of an uploader can be told instead of an answer.
-/

namespace ResumableUpload

/-- Why an uploader could not do what its caller asked. -/
inductive UploaderError
  /-- The session has ended and holds no channel. -/
  | stopped
  /-- The file could not be opened. -/
  | unopened (cause : Source.ReadError)
  deriving DecidableEq, Repr

/-- The wording of an uploader error. -/
def UploaderError.message : UploaderError → String
  | stopped => "uploader stopped"
  | unopened cause => s!"cannot open upload source: {cause.message}"

end ResumableUpload
