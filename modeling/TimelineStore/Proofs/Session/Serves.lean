import TimelineStore.Proofs.Session.Reachable
import TimelineStore.Proofs.Source.Memory

/-!
# Databases that serve a loaded trace

A database with a source `Feeds` a trace when the trace is listed and the database is bound
to it.  It `Serves` the trace when the source is in memory and the trace was loaded from it.
Loading a trace that has just been created leads there, and reads stay there.

**Results.**
* `Session.Feeds.read`: what the source of a database reads, the database reads, and it still
  feeds the trace that this leaves.
* `Session.Serves.read`: a read of known tracks succeeds, and the database still serves
  the trace that it leaves.
* `Session.serves_of_load`: a database serves the trace that was loaded from it.
-/

namespace TimelineStore

namespace Session

/-- A read of a database that serves a trace is what its source reads into the trace. -/
theorem read_eq
    {session : Session} {database : DatabaseId} {attached : Attached} {trace : Trace}
    {request : Request}
    (hdatabase : session.database database = .ok attached)
    (hserved : session.servedTrace database attached = .ok trace)
    (mode : ReadMode) :
    session.read database request mode =
      ⟨(attached.source.load mode request trace).events attached.source.name
          ChunkTotals.completion,
        (attached.source.load mode request trace).result,
        session.putTrace (attached.source.load mode request trace).trace⟩ := by
  simp [Session.read, Session.reading, hdatabase, hserved]

/-- A database that is bound to a listed trace serves it. -/
theorem servedTrace_of_listed
    {session : Session} {id : TraceId} {trace : Trace} {attached : Attached}
    (hlisted : session.trace id = .ok trace)
    (hbound : attached.bound = some id)
    (database : DatabaseId) :
    session.servedTrace database attached = .ok trace := by
  have hheld := trace_eq_ok_iff.1 hlisted
  simp [servedTrace, boundTrace?, liveTrace?, hbound, hheld]

/-- A trace takes the place of the listed one with its identifier. -/
theorem trace_putTrace
    {session : Session} {id : TraceId} {trace after : Trace}
    (hlisted : session.trace id = .ok trace)
    (hid : after.id = id) :
    (session.putTrace after).trace id = .ok after := by
  rw [trace_eq_ok_iff, get?_putTrace, hid, if_pos rfl, trace_eq_ok_iff.1 hlisted]
  rfl

/-- A database with the source is bound to a listed trace. -/
structure Feeds
    (session : Session) (database : DatabaseId) (id : TraceId) (source : Source)
    (trace : Trace) : Prop where
  attached : ∃ draft : Request.Draft,
    session.database database = .ok ⟨source, draft, some id⟩
  listed : session.trace id = .ok trace
  numbered : trace.id = id

/-- **What the source of a database reads, the database reads**, and it still feeds the trace
that this leaves. -/
theorem Feeds.read
    {session : Session} {database : DatabaseId} {id : TraceId} {source : Source}
    {trace : Trace} {request : Request} {totals : ChunkTotals}
    (mode : ReadMode)
    (hfeeds : session.Feeds database id source trace)
    (hcontinues : trace.Continues (source.load mode request trace).trace)
    (hread : (source.load mode request trace).result = .ok totals) :
    (session.read database request mode).result = .ok totals ∧
      (session.read database request mode).session.Feeds database id source
        (source.load mode request trace).trace := by
  obtain ⟨draft, hdatabase⟩ := hfeeds.attached
  have hserved : session.servedTrace database ⟨source, draft, some id⟩ = .ok trace :=
    servedTrace_of_listed hfeeds.listed rfl database
  have hid := hcontinues.id.trans hfeeds.numbered
  rw [read_eq hdatabase hserved]
  exact ⟨hread, ⟨draft, hdatabase⟩, trace_putTrace hfeeds.listed hid, hid⟩

/-- A database with a source in memory serves a listed trace that was loaded from it. -/
structure Serves
    (session : Session) (database : DatabaseId) (id : TraceId) (source : MemorySource)
    (trace : Trace) : Prop where
  attached : ∃ draft : Request.Draft,
    session.database database = .ok ⟨source.toSource, draft, some id⟩
  listed : session.trace id = .ok trace
  numbered : trace.id = id
  loaded : trace.LoadedWith source.metadata

namespace Serves

variable
  {session : Session} {database : DatabaseId} {id : TraceId} {source : MemorySource}
  {trace : Trace}

theorem feeds
    (hserves : session.Serves database id source trace) :
    session.Feeds database id source.toSource trace :=
  ⟨hserves.attached, hserves.listed, hserves.numbered⟩

/-- **A read of known tracks succeeds**, and leaves what the source reads. -/
theorem read
    {request : Request}
    (mode : ReadMode)
    (hserves : session.Serves database id source trace)
    (hinside : ∀ id ∈ request.tracks, id.index < source.tracks.length) :
    ∃ totals : ChunkTotals,
      (source.toSource.load mode request trace).result = .ok totals ∧
      (session.read database request mode).result = .ok totals ∧
      (session.read database request mode).session.Serves database id source
        (source.toSource.load mode request trace).trace := by
  obtain ⟨totals, hread, -⟩ := MemorySource.exists_load_eq_ok mode hserves.loaded hinside
  have hcontinues := Source.continues_load_of_ok mode rfl hread
  obtain ⟨hresult, hfeeds⟩ := hserves.feeds.read mode hcontinues hread
  exact ⟨totals, hread, hresult, hfeeds.attached, hfeeds.listed, hfeeds.numbered,
    hcontinues.loadedWith hserves.loaded⟩

end Serves

section Load

variable
  {session bound : Session} {database : DatabaseId} {id : TraceId} {attached : Attached}
  {source : MemorySource} {trace : Trace}

/-- Binding a database to a trace changes nothing that was loaded, and says so on both
sides. -/
theorem exists_bound_of_bind
    (hnumbered : session.Numbered)
    (hattached : session.database database = .ok attached)
    (htrace : session.trace id = .ok trace)
    (hbind : session.bind database id = .ok bound) :
    ∃ boundTrace : Trace,
      boundTrace.layout = trace.layout ∧ boundTrace.id = id ∧
      bound.trace id = .ok boundTrace ∧
      bound.database database = .ok { attached with bound := some id } := by
  obtain ⟨found, listed, boundTrace, hfound, hlisted, -, hboundTrace, rfl⟩ :=
    exists_of_bind hbind
  rw [hattached, Except.ok.injEq] at hfound
  rw [htrace, Except.ok.injEq] at hlisted
  subst hfound hlisted
  have hid : trace.id = id := hnumbered.traces id.index _ (trace_eq_ok_iff.1 htrace)
  have hsame : boundTrace.layout = trace.layout ∧ boundTrace.id = trace.id := by
    obtain ⟨_, _, rfl⟩ := Outcome.map_eq_ok_iff.1 hboundTrace
    exact ⟨rfl, rfl⟩
  have hnumber : boundTrace.id = id := hsame.2.trans hid
  refine ⟨boundTrace, hsame.1, hnumber, trace_putTrace htrace hnumber, database_eq_ok_iff.2 ?_⟩
  · have hchanged := (session.putTrace boundTrace).databases.get?_modify database.index
      database.index ({ · with bound := some id })
    rw [if_pos rfl] at hchanged
    refine hchanged.trans ?_
    have hkept : (session.putTrace boundTrace).databases.get? database.index = some attached :=
      database_eq_ok_iff.1 hattached
    rw [hkept]
    rfl

/-- **A database serves the trace that was loaded from it**, and no chunk of the trace is
resident yet. -/
theorem serves_of_load
    {draft : Request.Draft} {before : Option TraceId}
    (hnumbered : session.Numbered)
    (hattached : session.database database = .ok ⟨source.toSource, draft, before⟩)
    (htrace : session.trace id = .ok trace)
    (hunloaded : trace.isLoaded = false)
    (hbind : session.bind database id = .ok bound) :
    ∃ loaded : Trace,
      (bound.readMetadata database).result = .ok () ∧
      (bound.readMetadata database).session.Serves database id source loaded ∧
      ∀ track ∈ loaded.tracks, track.shelf.chunks = [] := by
  obtain ⟨boundTrace, hlayout, hid, hlisted, hdatabase⟩ :=
    exists_bound_of_bind hnumbered hattached htrace hbind
  have hserved : bound.servedTrace database ⟨source.toSource, draft, some id⟩ = .ok boundTrace :=
    servedTrace_of_listed hlisted rfl database
  have hnotYet : boundTrace.isLoaded = false := by
    rw [Trace.isLoaded, hlayout]
    exact hunloaded
  have hload : source.toSource.loadMetadata boundTrace =
      ⟨boundTrace.loadMetadata source.metadata, source.toSource.metadata.steps,
        .ok "Trace metadata successfully loaded"⟩ := rfl
  have hread : (bound.readMetadata database).session =
      bound.putTrace (boundTrace.loadMetadata source.metadata) ∧
        (bound.readMetadata database).result = .ok () := by
    simp [readMetadata, reading, hdatabase, hserved, hload, Except.map]
  have hkept : (boundTrace.loadMetadata source.metadata).id = id := by
    unfold Trace.loadMetadata
    split
    · exact hid
    · exact hid
  refine ⟨boundTrace.loadMetadata source.metadata, hread.2, ?_,
    Trace.chunks_loadMetadata hnotYet source.metadata⟩
  rw [hread.1]
  exact ⟨⟨draft, hdatabase⟩, trace_putTrace hlisted hkept, hkept,
    Trace.loadedWith_loadMetadata hnotYet source.metadata⟩

end Load

end Session

end TimelineStore
