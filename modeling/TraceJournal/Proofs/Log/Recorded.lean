import TraceJournal.Log.Logger

/-!
# Requests made of a medium

A medium that keeps a list of what a log asks of it, and otherwise does what the plain medium does.
Beside it, an exporter that only keeps a list of what it is told, and one that always fails.
-/
namespace TraceJournal

inductive Request where
  | create (path : String)
  | append (bytes : List UInt8)
  | flush
deriving DecidableEq, Repr

def Request.path? : Request → Option String
  | create path => some path
  | _ => none

/-- A medium and the requests made of it, in order. -/
structure Recorded (σ : Type) where
  medium : σ
  requests : List Request

variable {σ η ξ : Type}

instance [Storage σ η] : Storage (Recorded σ) η where
  create path m :=
    let (result, medium) := Storage.create path m.medium
    (result, ⟨medium, m.requests ++ [.create path]⟩)
  writeAll file bytes m :=
    let (result, medium) := Storage.writeAll file bytes m.medium
    (result, ⟨medium, m.requests ++ [.append bytes]⟩)
  flush file m :=
    let (result, medium) := Storage.flush file m.medium
    (result, ⟨medium, m.requests ++ [.flush]⟩)

/-- What an exporter does to the medium is not a request of the log. -/
instance [Exporter ξ σ] : Exporter ξ (Recorded σ) where
  deliver request exporter m :=
    let (result, exporter, medium) := Exporter.deliver request exporter m.medium
    (result, exporter, ⟨medium, m.requests⟩)

/-- An exporter that notes what it is told and leaves the medium alone. -/
instance : Exporter (List ExportRequest) σ where
  deliver request told m := (.ok (), told ++ [request], m)

/-- An exporter that always fails, for the same reason. -/
instance : Exporter IoError σ where
  deliver _ error m := (.error error, error, m)

theorem deliver_recorded [Exporter ξ σ] (request : ExportRequest) (exporter : ξ) (m : Recorded σ) :
    Exporter.deliver request exporter m =
      ((Exporter.deliver request exporter m.medium).1,
        (Exporter.deliver request exporter m.medium).2.1,
        (⟨(Exporter.deliver request exporter m.medium).2.2, m.requests⟩ : Recorded σ)) := rfl

namespace Writer

def recording (requests : List Request) (w : Writer σ η) : Writer (Recorded σ) η :=
  ⟨⟨w.medium, requests⟩, w.file, w.fileName, w.maxSize, w.byteCount, w.enabled, w.full, w.fault⟩

end Writer

end TraceJournal
