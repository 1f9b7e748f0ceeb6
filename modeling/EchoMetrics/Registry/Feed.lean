import EchoMetrics.Registry.Ingest

/-! # What a registry is fed with

While the prober is supervised, its lines come in between the records of its launches, of its phases
and of its version. -/

namespace EchoMetrics

/-- One thing that a registry is fed with. -/
inductive Feed
  | line (now : Float) (raw : String)
  | start (now : Float)
  | restart (now : Float)
  | phase (p : Phase)
  | version (v : String)

/-- What a feed writes, if anything. -/
def Feed.write? : Feed → Option Write
  | .line now raw => (Line.read (.float now) raw).write?
  | .start now => some (.start now)
  | .restart now => some (.restart now)
  | .phase p => some (.phase p)
  | .version v => some (.version v)

namespace Registry

def feed (r : Registry) : Feed → Registry
  | .line now raw => r.ingest now raw
  | .start now => r.apply (.start now)
  | .restart now => r.apply (.restart now)
  | .phase p => r.apply (.phase p)
  | .version v => r.apply (.version v)

/-- Feeds a registry with one thing after the other. -/
def feedAll (r : Registry) (fs : List Feed) : Registry := fs.foldl feed r

theorem feed_eq (r : Registry) (f : Feed) : r.feed f = (f.write?.map r.apply).getD r := by
  cases f <;> rfl

/-- Feeds change a registry by what they write. -/
theorem feedAll_eq_replay (r : Registry) (fs : List Feed) :
    r.feedAll fs = r.replay (fs.filterMap Feed.write?) := by
  induction fs generalizing r with
  | nil => rfl
  | cons f fs ih =>
    change (r.feed f).feedAll fs = _
    rw [ih, feed_eq, List.filterMap_cons]
    cases f.write? <;> rfl

end Registry

end EchoMetrics
