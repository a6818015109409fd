import CoroHttp.Std.Stream
import CoroHttp.Std.Conv
import CoroHttp.Std.Map
import CoroHttp.Chunked
import CoroHttp.Sse.Parser
import CoroHttp.Sse.Blocks
import CoroHttp.Sse.RoundTrip
import CoroHttp.Sse.Invariants
import CoroHttp.Sse.Framing
import CoroHttp.Response
import CoroHttp.Client.Redirects
import CoroHttp.Client.Executors
import CoroHttp.Client.Clients
import CoroHttp.Client.Chain
import CoroHttp.Retry
