import Switchboard.Hub.Table
import Switchboard.Series.Basic

/-!
# Hubs

A hub publishes the values of its leaves together. It keeps what it published last: the
snapshot, the text, and the text wrapped with its id. A volatile hub renders its leaves anew
each time it is read.
-/

namespace Switchboard

/-- A named group of leaves that is published as one value. -/
structure Hub where
  name : String
  table : LeafTable
  consumers : List ConsumerId := []
  formatted : Option String := none
  wrapped : Option String := none
  snapshot : Option Snapshot := none
  isVolatile : Bool := false
  series : Option TimeSeries := none
  deriving Inhabited

namespace Hub

/-- The id that the hub goes by. -/
def id (h : Hub) : String := Name.hubId h.name

/-- The id as a quoted string. -/
def idJson (h : Hub) : String := String.ofList (Json.quote h.id.toList)

/-- A text with the id of the hub: an array of the two. -/
def wrap (h : Hub) (text : String) : String := "[" ++ h.idJson ++ "," ++ text ++ "]"

/-- Subscribes a consumer, unless it is subscribed already. -/
def subscribe (h : Hub) (c : ConsumerId) : Hub :=
  if h.consumers.contains c then h else { h with consumers := h.consumers ++ [c] }

/-- Removes consumers, the others staying in order. -/
def unsubscribeAll (h : Hub) (gone : List ConsumerId) : Hub :=
  { h with consumers := h.consumers.filter fun c => !gone.contains c }

/-- Removes a consumer. -/
def unsubscribe (h : Hub) (c : ConsumerId) : Hub := h.unsubscribeAll [c]

end Hub

end Switchboard
