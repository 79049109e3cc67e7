import XmonadWayland.Base.Lists
import XmonadWayland.Base.Links
import XmonadWayland.Base.Maps
import XmonadWayland.Base.Monitor
import XmonadWayland.Base.Spans
import XmonadWayland.Base.Slices
import XmonadWayland.Base.Climb
import XmonadWayland.Base.Runs
import XmonadWayland.Base.Raises
import XmonadWayland.StackSet.Cursor
import XmonadWayland.StackSet.Views
import XmonadWayland.StackSet.Moves
import XmonadWayland.StackSet.Order
import XmonadWayland.Policy.Rebuild
import XmonadWayland.Policy.Hotplug
import XmonadWayland.Policy.Client
import XmonadWayland.Policy.Picker
import XmonadWayland.Policy.Mode
import XmonadWayland.Policy.Family
import XmonadWayland.Policy.Redelivery
import XmonadWayland.Policy.Topology
import XmonadWayland.Policy.Focusing
import XmonadWayland.Policy.Cycling
import XmonadWayland.Policy.Relayout
import XmonadWayland.Policy.Grab
import XmonadWayland.Policy.Anchors
import XmonadWayland.Policy.Drag
import XmonadWayland.Policy.Edges
import XmonadWayland.Policy.Tiling
import XmonadWayland.Policy.Overlap
import XmonadWayland.Policy.Swap
import XmonadWayland.Policy.Click
import XmonadWayland.Policy.Transfer
import XmonadWayland.Policy.Target
import XmonadWayland.Policy.Move
import XmonadWayland.Policy.Grow
import XmonadWayland.Policy.Split
import XmonadWayland.Policy.Direction
import XmonadWayland.Bridge.Order
import XmonadWayland.Bridge.Log
import XmonadWayland.Bridge.Guard
import XmonadWayland.Bridge.Locked
import XmonadWayland.Bridge.Drag
import XmonadWayland.Bridge.Release
import XmonadWayland.Bridge.Bindings
import XmonadWayland.Bridge.Chords
import XmonadWayland.Bridge.Dispatch
import XmonadWayland.Bridge.Overlay
import XmonadWayland.Bridge.Desk
import XmonadWayland.Bridge.Custody
import XmonadWayland.Bridge.Mapping
import XmonadWayland.Bridge.Place
import XmonadWayland.Bridge.Rendering
import XmonadWayland.Bridge.Stacking
import XmonadWayland.Bridge.Fullscreen
import XmonadWayland.Bridge.Passes
import XmonadWayland.Bridge.Lifetime
import XmonadWayland.Bridge.Drawn
import XmonadWayland.Bridge.Focus
import XmonadWayland.Bridge.Teardown
import XmonadWayland.Nested.Reconcile
import XmonadWayland.Nested.Escape
import XmonadWayland.Nested.Modes
import XmonadWayland.Effects
import XmonadWayland.Base.Feed
import XmonadWayland.Nested.Tree
import XmonadWayland.Nested.Honest
