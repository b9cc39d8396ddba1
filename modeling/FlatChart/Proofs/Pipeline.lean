import FlatChart.Proofs.Builder.Data
import FlatChart.Proofs.Chart.RoundTrip
import FlatChart.Proofs.Tree.Compile

/-!
# From a tree to a chart and back

A tree is compiled, the chart is decorated by a builder, written and read. What comes back is the
chart of the tree without its functions, whatever was called on the builder.
-/

namespace FlatChart.Element

/-- A compiled chart that was decorated by any session is written and read as the chart of the tree
without its functions. -/
theorem read_text_run_build (tree : Element) (context : Option Json) (calls : List Call)
    (hnull : context ≠ some .null) (hcontext : ∀ v, context = some v → v.nesting ≤ 126)
    (hvalues : ∀ v ∈ tree.values, v.nesting ≤ 122) (hfloats : (tree.compile context).Rereads) :
    Chart.read ((tree.compile context).build.run calls).2.chart.text =
      .ok (tree.unwired.compile context) := by
  -- Neither the session nor dropping the functions of the tree changes the data of the chart.
  have hstrip : ((tree.compile context).build.run calls).2.chart.strip =
      (tree.compile context).strip := (tree.compile context).build.strip_run calls
  have hkept : (tree.compile context).strip.context = context := by
    have h : (tree.compile context).strip.context = context.filter fun v => !v.isNull := rfl
    rw [h]
    cases context with
    | none => rfl
    | some v =>
      cases v with
      | null => exact absurd rfl hnull
      | _ => rfl
  have hcompile : (tree.compile context).strip = tree.unwired.compile context := by
    rw [compile_unwired]
    exact congrArg (Chart.mk _ · _) hkept
  have hfits : (tree.compile context).Fits := tree.everyDatum_compile context hcontext hvalues
  generalize ((tree.compile context).build.run calls).2.chart = c at hstrip ⊢
  have hrereads : c.Rereads := by
    rw [← c.rereads_strip, hstrip, Chart.rereads_strip]
    exact hfloats
  have hread := c.yields_read hrereads
  rw [hread.ok (by rw [← c.fits_strip, hstrip, Chart.fits_strip]; exact hfits), hstrip, hcompile]

/-- A state with a transition that is guarded and carries a float. -/
def lamp : Element :=
  let press := (component "Transition").withAttribute "event" (.data (.str "PRESS"))
    |>.withAttribute "cond" (.guard ⟨0, some "ready", fun _ => true⟩)
    |>.withAttribute "rate" (.data (.num (.float ⟨false, 0x14000000000000, 1023, by decide⟩)))
  fragment.child ((component "State").withAttribute "id" (.data (.str "off")) |>.child press)

/-- A session with a call that fails and a chain on an invoke block. -/
def lampCalls : List Call :=
  [.action ⟨1, none⟩, .focus { event := some "PRESS" }, .action ⟨1, none⟩, .onEntry ⟨2, none⟩,
    .invoke ⟨3, none, .ok⟩ (.handle .doneFirst (.target "off" .builder))]

/-- After the session the text of the lamp is read as the chart of the bare tree. -/
theorem read_text_run_build_lamp :
    Chart.read ((lamp.compile (some (.bool true))).build.run lampCalls).2.chart.text =
      .ok (lamp.unwired.compile (some (.bool true))) := by
  have hvalues : ∀ v ∈ lamp.values, v.nesting ≤ 122 ∧ v.Rereads := by decide +kernel
  have hfloats : (lamp.compile (some (.bool true))).Rereads :=
    lamp.everyDatum_compile _ (by rintro _ ⟨⟩; decide) fun v hv => (hvalues v hv).2
  exact lamp.read_text_run_build (some (.bool true)) lampCalls (by simp) (by rintro _ ⟨⟩; decide)
    (fun v hv => (hvalues v hv).1) hfloats

end FlatChart.Element
