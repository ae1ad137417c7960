import TraceJournal.Random.Draw

/-!
# What always holds of a draw

Whatever stream a draw is made from, its result has some properties. Of draws made one after the
other, the later ones may rely on what always holds of the earlier ones.
-/
namespace TraceJournal.Random

variable {α β : Type} {draw : Random α} {next : α → Random β}

/-- Whether every result of a draw has a property. -/
structure Always (draw : Random α) (P : α → Prop) : Prop where
  of_stream : ∀ stream, P (draw.run stream).1

namespace Always

theorem pure {P : α → Prop} {a : α} (h : P a) : Always (Pure.pure a) P := ⟨fun _ => h⟩

theorem bind {P : α → Prop} {Q : β → Prop} (h : draw.Always P)
    (hnext : ∀ a, P a → (next a).Always Q) : Always (draw >>= next) Q :=
  ⟨fun stream => (hnext _ (h.of_stream stream)).of_stream (draw.run stream).2⟩

/-- What comes after a draw does not rely on its result. -/
theorem bind_any {Q : β → Prop} (hnext : ∀ a, (next a).Always Q) : Always (draw >>= next) Q :=
  ⟨fun stream => (hnext _).of_stream (draw.run stream).2⟩

theorem mono {P Q : α → Prop} (h : draw.Always P) (himp : ∀ a, P a → Q a) : draw.Always Q :=
  ⟨fun stream => himp _ (h.of_stream stream)⟩

end Always

theorem always_bytes (n : Nat) : (bytes n).Always fun bs => bs.length = n := by
  induction n with
  | zero => exact .pure rfl
  | succ n ih =>
    rw [bytes]
    apply Always.bind_any
    intro b
    apply ih.bind
    intro bs hbs
    exact .pure (by rw [List.length_cons, hbs])

end TraceJournal.Random
