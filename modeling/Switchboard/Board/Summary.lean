import Switchboard.Board.Transaction
import Switchboard.Text.Shown

/-!
# Summaries

One line about a hub, the open transaction or the whole board, for people who look for a fault.
-/

namespace Switchboard

/-- A number as text. -/
def numberText (n : Nat) : String := String.ofList (Decimal.digits n)

/-- A text in quotes, with everything invisible escaped. -/
def shownText (s : String) : String := String.ofList (Text.shown s.toList)

/-- A summary: a title and fields. -/
def summaryText (title : String) (fields : List (String × String)) : String :=
  title ++ " \x7b " ++ ", ".intercalate (fields.map fun f => f.1 ++ ": " ++ f.2) ++ " \x7d"

/-- The word for a kind of update. -/
def UpdateKind.word : UpdateKind → String
  | .triple => "Triple"
  | .batch => "Batch"

/-- The name of a hub and the numbers of its registered leaves and its consumers. -/
def Hub.summary (h : Hub) : String :=
  summaryText "Hub"
    [("name", shownText h.name),
      ("leaves", numberText h.table.byPredicate.size),
      ("consumers", numberText h.consumers.length),
      ("volatile", if h.isVolatile then "true" else "false")]

/-- The time and kind of a transaction and the names of the hubs touched in it. -/
def Transaction.summary (tx : Transaction) : String :=
  summaryText "UpdateTransaction"
    [("at", String.ofList tx.openedAt.exactText),
      ("kind", tx.kind.word),
      ("touched", "[" ++ ", ".intercalate (tx.touched.keys.map shownText) ++ "]")]

/-- The numbers of known hubs, known leaves and sampled meters. -/
def Board.summary (b : Board) : String :=
  summaryText "Broker"
    [("hubs", numberText b.registry.hubs.size),
      ("leaves", numberText b.registry.leaves.size),
      ("rate_meters", numberText b.registry.meters.length)]

end Switchboard
