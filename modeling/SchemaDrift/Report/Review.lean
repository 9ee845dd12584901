import SchemaDrift.Compare.Texts
import SchemaDrift.Config
import SchemaDrift.Report

/-! The review of one schema version against another: both texts are read, compared, and the changes
that the configuration ignores are counted and dropped. -/
namespace SchemaDrift

structure LabeledText where
  label : String
  text : String
  deriving DecidableEq, Repr

structure InvalidSchema where
  label : String
  error : Sdl.SchemaError
  deriving DecidableEq, Repr

def InvalidSchema.message (e : InvalidSchema) : String :=
  "invalid schema " ++ e.label ++ ": " ++ e.error.message

def LabeledText.fingerprint (t : LabeledText) : Fingerprint := Fingerprint.of t.label t.text

def LabeledText.model (t : LabeledText) : Except InvalidSchema Model :=
  match Sdl.readSchema t.text with
  | .ok m => .ok m
  | .error e => .error ⟨t.label, e⟩

namespace Review

def kept (rules : IgnoreRules) (s : ChangeSet) : ChangeSet :=
  if rules.isEmpty then s else s.retain fun c => !rules.ignores c

def report (timestamp : String) (rules : IgnoreRules) (old new : LabeledText) (s : ChangeSet) :
    Report :=
  ((Report.ofChanges timestamp (kept rules s)).withSources old.fingerprint
    new.fingerprint).withIgnored (s.size - (kept rules s).size)

def review (timestamp : String) (old new : LabeledText) (config : Config)
    (options : Compare.Options) : Except InvalidSchema Report := do
  let before ← old.model
  let after ← new.model
  .ok (report timestamp config.ignore old new (Compare.compare before after options))

end Review
end SchemaDrift
