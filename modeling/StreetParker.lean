import StreetParker.Rounding
import StreetParker.Runs
import StreetParker.Merge
import StreetParker.Interleaving
import StreetParker.Firebase
import StreetParker.Dataservice
import StreetParker.CoreData
import StreetParker.World
import StreetParker.Controllers
import StreetParker.App
import StreetParker.Steps
import StreetParker.Store
import StreetParker.History
import StreetParker.Schema
import StreetParker.CarInfo
import StreetParker.Observers
import StreetParker.Clients
import StreetParker.Screens
import StreetParker.Gate
import StreetParker.Logout
import StreetParker.Credentials
import StreetParker.Silent
import StreetParker.Mirror
import StreetParker.Rows
import StreetParker.Recovery
import StreetParker.SocialFlow
import StreetParker.Press
import StreetParker.Labels
import StreetParker.Upload
import StreetParker.Menu
import StreetParker.Bluetooth
import StreetParker.Drag
import StreetParker.Deferred
import StreetParker.Reveal
import StreetParker.Deployment
import StreetParker.RevealBlocks
import StreetParker.RevealRuns
import StreetParker.RevealFlow
import StreetParker.RevealRight
import StreetParker.RevealSafety
import StreetParker.RevealGestures
import StreetParker.Chains
import StreetParker.Integrity
import StreetParker.Traps
import StreetParker.Takeover
