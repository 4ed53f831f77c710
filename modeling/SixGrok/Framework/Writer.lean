import SixGrok.Framework.Consumer
import SixGrok.Framework.Reader

namespace SixGrok.Framework

/-- A file or a device. What it has taken so far decides what the next `write_all` comes back with,
a failure telling how many of the bytes have been taken, and what a `flush` comes back with. -/
structure Writer where
  accept : List UInt8 → List UInt8 → Except (ErrorKind × Nat) Unit := fun _ _ => .ok ()
  flushes : List UInt8 → Except ErrorKind Unit := fun _ => .ok ()
  written : List UInt8 := []

namespace Writer

def writeAll : Consumer Writer ErrorKind (List UInt8) := fun bytes writer =>
  match writer.accept writer.written bytes with
  | .ok () => (.ok (), { writer with written := writer.written ++ bytes })
  | .error (kind, n) => (.error kind, { writer with written := writer.written ++ bytes.take n })

def flush (writer : Writer) : Except ErrorKind Unit := writer.flushes writer.written

variable {writer writer' : Writer}

/-- Everything that a `write_all` can do. -/
theorem writeAll_cases {bytes : List UInt8} {result : Except ErrorKind Unit}
    (h : writeAll bytes writer = (result, writer')) :
    (result = .ok () ∧ writer'.written = writer.written ++ bytes) ∨
    ∃ kind n, result = .error kind ∧ writer'.written = writer.written ++ bytes.take n := by
  rw [writeAll] at h
  cases haccept : writer.accept writer.written bytes with
  | ok _ =>
    simp only [haccept] at h
    obtain ⟨rfl, rfl⟩ := Prod.mk.inj h
    exact .inl ⟨rfl, rfl⟩
  | error failure =>
    simp only [haccept] at h
    obtain ⟨rfl, rfl⟩ := Prod.mk.inj h
    exact .inr ⟨_, failure.2, rfl, rfl⟩

/-- What has been written is a first part of what was to be written, and all of it when no write
has failed. -/
theorem written_feedAll {chunks : List (List UInt8)} {result : Except ErrorKind Unit}
    (h : writeAll.feedAll chunks writer = (result, writer')) :
    ∃ sent, writer'.written = writer.written ++ sent ∧ sent <+: chunks.flatten ∧
      (result = .ok () → sent = chunks.flatten) := by
  induction chunks generalizing writer with
  | nil =>
    obtain ⟨rfl, rfl⟩ := Prod.mk.inj h
    exact ⟨[], (List.append_nil _).symm, List.nil_prefix, fun _ => rfl⟩
  | cons chunk chunks ih =>
    rw [Consumer.feedAll] at h
    rcases hfirst : writeAll chunk writer with ⟨err | ⟨⟩, next⟩
    · rw [hfirst] at h
      obtain ⟨rfl, rfl⟩ := Prod.mk.inj h
      rcases writeAll_cases hfirst with ⟨hok, -⟩ | ⟨kind, n, -, hwritten⟩
      · cases hok
      · refine ⟨chunk.take n, hwritten, (List.take_prefix n chunk).trans (List.prefix_append ..), ?_⟩
        intro hok
        cases hok
    · rw [hfirst] at h
      rcases writeAll_cases hfirst with ⟨-, hwritten⟩ | ⟨kind, n, herr, -⟩
      · obtain ⟨sent, hsent, hprefix, hall⟩ := ih h
        refine ⟨chunk ++ sent, ?_, ?_, ?_⟩
        · rw [hsent, hwritten, List.append_assoc]
        · exact (List.prefix_append_right_inj chunk).mpr hprefix
        · intro hok
          rw [hall hok, List.flatten_cons]
      · cases herr

end Writer

end SixGrok.Framework
