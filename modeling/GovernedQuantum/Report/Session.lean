import GovernedQuantum.Explanation
import GovernedQuantum.Report.Language
import GovernedQuantum.Session.Result

/-!
# Sessions as JSON

How handles, entities, reviews, delegations and results are written as JSON.
-/

namespace GovernedQuantum

def Handle.fields (h : Handle) : List (String × Json) :=
  [("id", .nat h.id), ("name", .text h.name), ("dimension", .nat h.dimension),
    ("coherence", .text h.coherence.name), ("measurement", .text h.measurement.name),
    ("created_at_ms", .nat h.createdAt), ("last_interaction_ms", .nat h.lastInteraction),
    ("coherence_deadline_ms", .nat h.coherenceDeadline), ("gates", .texts h.gates.toList)]

def Handle.json (h : Handle) : Json := .object h.fields

def Snapshot.json (s : Snapshot) : Json :=
  .object (s.handle.fields ++
    [("purity", .text s.purity.name), ("entangled_with", .nats s.partners)])

def Group.json (g : Group) : Json :=
  .object
    [("id", .nat g.id), ("participants", .nats g.participants), ("kind", .text g.kind.name),
      ("strength", .float g.strength), ("coherence_time_ms", .nat g.coherenceTime),
      ("created_at_ms", .nat g.createdAt)]

def Entity.json (e : Entity) : Json :=
  .object
    [("name", .text e.name), ("explainability", .float e.explainability),
      ("oversight", .text e.oversight.name), ("criticality", .text e.criticality.name),
      ("compliance", .text e.compliance.name), ("approved", .bool e.approved),
      ("deployments", .texts e.deployments.toList), ("decisions", .texts e.decisions.toList)]

def Record.json (r : Record) : Json :=
  .object
    [("name", .text r.name), ("handle", .nat r.handle), ("dimension", .nat r.dimension),
      ("outcome", .nat r.outcome), ("probability", .float r.probability),
      ("measured_at_ms", .nat r.measuredAt), ("released_partners", .nats r.releasedPartners)]

def DelegationRequest.json (r : DelegationRequest) : Json :=
  .object
    [("kind", .text r.kind.name), ("resources", .texts r.resources), ("handles", .nats r.handles),
      ("local_node", .text r.localNode), ("remote_node", .option .text r.remoteNode),
      ("channel", .option .text r.channel), ("session_id", .text r.sessionId)]

def Ticket.json (t : Ticket) : Json :=
  .object
    [("id", .nat t.id), ("request", t.request.json), ("detail", .option .text t.detail)]

def Barrier.json (b : Barrier) : Json :=
  .object
    [("name", .text b.name), ("deadline_ms", .nat b.deadline),
      ("participants", .texts b.participants), ("created_at_ms", .nat b.createdAt)]

def Window.json (w : Window) : Json :=
  .object
    [("name", .text w.name), ("soft_ms", .nat w.soft), ("hard_ms", .nat w.hard),
      ("registered_at_ms", .nat w.registeredAt)]

def Request.json (r : Request) : Json :=
  .object
    [("id", .nat r.id), ("operation_id", .text r.operationId), ("kind", .text r.kind.name),
      ("criticality", .text r.criticality.name), ("details", .text r.details),
      ("level", .text r.level.name)]

def Decision.json (d : Decision) : Json := .text d.name

def LogEntry.json (e : LogEntry) : Json :=
  .object [("request", e.request.json), ("decision", .option Decision.json e.decision)]

def Suspension.json (s : Suspension) : Json :=
  .object
    [("request", s.request.json), ("instruction", s.instruction.json), ("index", .nat s.index)]

def Explanation.json (e : Explanation) : Json :=
  .object
    [("summary", .text e.summary), ("confidence", .float e.confidence),
      ("factors", .texts e.factors)]

def Result.json (r : Result) : Json :=
  .object
    [("success", .bool r.success), ("state", .text r.status.name), ("console", .texts r.console),
      ("errors", .list (r.errors.map Diagnostic.json)),
      ("warnings", .list (r.warnings.map Diagnostic.json)),
      ("handles", .list (r.handles.map Snapshot.json)),
      ("groups", .list (r.groups.map Group.json)),
      ("entities", .list (r.entities.map Entity.json)),
      ("variables", .object (r.values.entries.map fun (name, v) => (name, v.json))),
      ("classical_records", .list (r.records.map Record.json)),
      ("delegations", .list (r.delegations.map Ticket.json)),
      ("barriers", .list (r.barriers.map Barrier.json)),
      ("windows", .list (r.windows.map Window.json)),
      ("oversight_log", .list (r.reviews.map LogEntry.json)),
      ("session_id", .text r.sessionId)]

end GovernedQuantum
