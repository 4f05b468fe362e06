import Boots.Http.Basic
import Boots.Http.ResponseWriter
import Boots.Http.Json
import Boots.Http.Handlers
import Boots.Http.Gate
import Boots.Http.Events
import Boots.Http.Utf8
import Boots.Http.JsonScan
import Boots.Http.JsonDecode
import Boots.Http.Net
import Boots.Http.Mux
import Boots.Http.CleanPath
import Boots.Http.Relay
import Boots.Http.Addr
import Boots.Http.Server
import Boots.Http.Writes
import Boots.Http.ServerRelay
import Boots.Http.JsonInvariant
import Boots.Http.JsonGrammar
import Boots.Http.JsonLiteral
import Boots.Http.JsonObject
import Boots.Http.JsonMarshal
import Boots.Http.EventsBody
